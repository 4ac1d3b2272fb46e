import Vexjine.WakeUps

/-!
# Parks

Parks and unparks of a thread against the automaton of one permit. The permit is
spread over two flags of the thread, which the parking and the unparking threads
write; the return of a park writes neither of them.
-/

namespace Vexjine.Parking
open Vexjine.Runs Vexjine.Vex Vexjine.WakeUps
set_option linter.unusedSimpArgs false

/-! ## The automaton -/

inductive Operation
  | park
  | returned
  | unpark

/-- At most one permit is available; a parked thread waits for it. -/
structure Permit where
  available : Bool
  parked : Bool
  deriving DecidableEq

namespace Permit
variable (permit : Permit)

/-- A park takes the permit or parks, an unpark ends the park or leaves the permit. -/
def perform : Operation → Permit
  | .park => if permit.available then ⟨false,false⟩ else ⟨false,true⟩
  | .returned => ⟨permit.available,false⟩
  | .unpark => if permit.parked then ⟨false,false⟩ else ⟨true,false⟩

def performs (operations : List Operation) : Permit := operations.foldl perform permit

theorem performs_append (first second : List Operation) :
    permit.performs (first ++ second) = (permit.performs first).performs second := List.foldl_append

/-- Unparks of a thread that is not parked leave one permit, however many they are. -/
theorem performs_unparks (notParked : permit.parked = false) (more : Nat) :
    permit.performs (List.replicate (more + 1) .unpark) = ⟨true,false⟩ := by
  induction more with
  | zero => simp [performs,perform,notParked]
  | succ more ih =>
    rw [List.replicate_succ',performs_append,ih]
    rfl

/-- The next park takes it and returns at once, and the park after that one does not. -/
theorem park_takes_permit (notParked : permit.parked = false) (more : Nat) :
    permit.performs (List.replicate (more + 1) .unpark ++ [.park,.returned]) = ⟨false,false⟩ ∧
      permit.performs (List.replicate (more + 1) .unpark ++ [.park,.returned,.park]) = ⟨false,true⟩ := by
  rw [performs_append,performs_append,performs_unparks permit notParked]
  exact ⟨rfl,rfl⟩

end Permit

/-! ## The steps -/

/-- The two flags as a state of the automaton. -/
def permitOf (state : VexThreadState) : Permit := ⟨state.alreadyUnparked,state.parked⟩

/-- What a step is to the automaton of the thread. -/
def operationOf (t : Int64) : Event → Option Operation
  | .park u _ => if u = t then some .park else none
  | .parked u _ => if u = t then some .returned else none
  | .unpark u => if u = t then some .unpark else none
  | _ => none

/-- Parks, their returns, unparks, and what threads and managers do beside them. -/
def isParking : Event → Bool
  | .spawn _ _ _ _ | .ended _ | .suspend _ | .suspendLoose _ | .park _ _ | .parked _ _ | .unpark _
  | .continueThread _ _ _ | .returnFromBlock _ => true
  | _ => false

variable {Locks : Type} (locking : LockOperations Locks)

def parkingStep (vex : Vex Locks) (event : Event) : Option (Vex Locks) :=
  if isParking event then vex.step locking event else none

/-- The step follows the automaton. -/
structure Follows (vex next : Vex Locks) (event : Event) : Prop where
  permits : ∀ t thread after, vex.threadRegistry t = some thread → next.threadRegistry t = some after →
    permitOf after.state = (permitOf thread.state).performs (operationOf t event).toList
  /-- A park with a permit returns at once. -/
  taken : ∀ t timeout thread after, event = .park t timeout → vex.threadRegistry t = some thread →
    next.threadRegistry t = some after → (permitOf thread.state).available = true →
      after.isFree = true ∧ next.runnableThreads = vex.runnableThreads ∧ next.runningThread = vex.runningThread
  /-- A park without one gives up the processor. -/
  parks : ∀ t timeout thread after, event = .park t timeout → vex.threadRegistry t = some thread →
    next.threadRegistry t = some after → (permitOf thread.state).available = false →
      after.state.isWaiting = true ∧ ∀ manager, next.runningThread manager ≠ some t
  /-- A park that returns ends: its thread runs again, or the scheduler resumes it. -/
  ends : ∀ t suspends after, event = .parked t suspends → next.threadRegistry t = some after →
    after.isFree = true ∨ Resumable next t
  /-- An unpark of a parked thread lets it return, which ends the park. -/
  resumes : ∀ t thread, event = .unpark t → vex.threadRegistry t = some thread → thread.state.parked = true →
    ∀ suspends, ∃ last after, next.step locking (.parked t suspends) = some last ∧
      last.threadRegistry t = some after ∧ (after.isFree = true ∨ Resumable last t)
  /-- An unpark pushes nothing and does not stop a running thread. -/
  spares : ∀ t thread after, event = .unpark t → vex.threadRegistry t = some thread → next.threadRegistry t = some after →
    next.runnableThreads = vex.runnableThreads ∧ next.runningThread = vex.runningThread ∧
      (thread.isFree = true → after.isFree = true)

/-- Every step that the event makes in the state follows the automaton. -/
def FollowsAutomaton (vex : Vex Locks) (event : Event) : Prop :=
  ∀ next, parkingStep locking vex event = some next → Follows locking vex next event

/-- A park that returns is no longer recorded, and its thread is queued if the timeout says so. -/
def ReturnsUnparked (vex : Vex Locks) : Event → Prop
  | .parked t _ => ∀ thread, vex.threadRegistry t = some thread → thread.blocked = false → thread.position = .parking →
    thread.state.parked = false ∧ (0 < thread.state.timeout → t ∈ vex.runnableThreads)
  | _ => True

/-! ## The running threads -/

section Running
variable {locking} {vex next : Vex Locks} {t : Int64} {thread : Thread}

/-- The thread runs at most under its own manager. -/
private def RunsAtHome (vex : Vex Locks) (t : Int64) : Prop :=
  ∀ manager, vex.runningThread manager = some t → manager = vex.managerOf t

/-- No other thread starts to run, and if this one runs then it executes its own code. -/
private structure Runs (t : Int64) (vex next : Vex Locks) : Prop where
  others : ∀ manager x, x ≠ t → next.runningThread manager = some x → vex.runningThread manager = some x
  own : ∀ manager, next.runningThread manager = some t → ∃ after, next.threadRegistry t = some after ∧
    after.threadCurrentlyControllingManager = manager ∧ after.isFree = true

private theorem unset_others {manager : Nat} {x : Int64}
    (runs : (vex.unsetCurrentThreadFromRunningThread t).runningThread manager = some x) :
    vex.runningThread manager = some x := by
  unfold unsetCurrentThreadFromRunningThread at runs
  split_ifs at runs
  · by_cases same : manager = vex.managerOf t
    · subst same
      simp [setRunning] at runs
    · simpa [setRunning,same] using runs
  · exact runs

private theorem unset_congr {before : Vex Locks} {now : Thread} (running : before.runningThread = vex.runningThread)
    (foundNow : before.threadRegistry t = some now) (found : vex.threadRegistry t = some thread)
    (home : now.threadCurrentlyControllingManager = thread.threadCurrentlyControllingManager) :
    (before.unsetCurrentThreadFromRunningThread t).runningThread =
      (vex.unsetCurrentThreadFromRunningThread t).runningThread := by
  have same : before.managerOf t = vex.managerOf t := by simp [managerOf,foundNow,found,home]
  unfold unsetCurrentThreadFromRunningThread
  rw [running,same]
  split_ifs
  · simp [setRunning,running]
  · exact running

private theorem unset_own (home : RunsAtHome vex t) (manager : Nat) :
    (vex.unsetCurrentThreadFromRunningThread t).runningThread manager ≠ some t := by
  intro runs
  have same := home manager (unset_others runs)
  subst same
  unfold unsetCurrentThreadFromRunningThread at runs
  split_ifs at runs with running
  · simp [setRunning] at runs
  · exact running runs

/-- A step that takes the thread off its manager. -/
private theorem runs_of_unset (home : RunsAtHome vex t)
    (running : next.runningThread = (vex.unsetCurrentThreadFromRunningThread t).runningThread) : Runs t vex next := by
  constructor
  · intro manager x _ runs
    rw [running] at runs
    exact unset_others runs
  · intro manager runs
    rw [running] at runs
    exact absurd runs (unset_own home manager)

/-- The running threads are all that matters of the state before. -/
private theorem runs_from {before : Vex Locks} (same : before.runningThread = vex.runningThread) (runs : Runs t before next) :
    Runs t vex next := ⟨fun manager x other running => same ▸ runs.others manager x other running,runs.own⟩

private theorem setRunningThread_runs (found : vex.threadRegistry t = some thread) (home : RunsAtHome vex t) :
    Runs t vex (vex.setRunningThread t) := by
  have same : (vex.onState t fun state => state.setAwaken false).managerOf t = vex.managerOf t :=
    managerOf_onThread _ fun _ => rfl
  have homeStill : RunsAtHome (vex.onState t fun state => state.setAwaken false) t := by
    intro manager runs
    rw [same]
    exact home manager runs
  have controlled : vex.managerOf t = thread.threadCurrentlyControllingManager := by simp [managerOf,found]
  have awake : (vex.onState t fun state => state.setAwaken false).runningThread = vex.runningThread := rfl
  unfold setRunningThread
  dsimp only
  split_ifs
  · rw [same]
    constructor
    · intro manager x other runs
      by_cases here : manager = vex.managerOf t
      · subst here
        simp only [setBlocked,onThread,setRunning,Function.update_self,Option.some.injEq] at runs
        exact absurd runs.symm other
      · simpa [setBlocked,onThread,onState,setRunning,here] using runs
    · intro manager runs
      have here : manager = vex.managerOf t := by
        by_contra elsewhere
        refine elsewhere (home manager ?_)
        simpa [setBlocked,onThread,onState,setRunning,elsewhere] using runs
      refine ⟨{ thread with state := (thread.state.setAwaken false).setRunning,blocked := false },?_,?_,rfl⟩
      · simp [setBlocked,onThread,onState,setRunning,found]
      · rw [here,controlled]
  · exact runs_from awake (runs_of_unset homeStill rfl)
  · exact runs_from awake (runs_of_unset homeStill rfl)

private theorem suspendCurrentThread_runs (suspends : Bool) (found : vex.threadRegistry t = some thread)
    (home : RunsAtHome vex t)
    (free : ∀ manager, vex.runningThread manager = some t → thread.threadCurrentlyControllingManager = manager ∧
      thread.isFree = true) : Runs t vex (vex.suspendCurrentThread t suspends) := by
  unfold suspendCurrentThread
  split_ifs
  · exact runs_of_unset home rfl
  · exact ⟨fun _ _ _ runs => runs,fun manager runs => ⟨thread,found,free manager runs⟩⟩
  · exact setRunningThread_runs found home

end Running

/-! ## The invariant -/

/-- Where a thread of a run of parks is: it runs, waits in a park, stands in the queue until it is
    resumed, or has been resumed and not returned yet. It is recorded as parked only while it waits. -/
private inductive Phase (vex : Vex Locks) (t : Int64) (thread : Thread) : Prop
  | running (free : thread.isFree = true) (unqueued : t ∉ vex.runnableThreads) (notParked : thread.state.parked = false)
  | waiting (position : thread.position = .parking) (unblocked : thread.blocked = false)
      (waits : thread.state.isWaiting = true) (timed : 0 < thread.state.timeout → thread.state.waitingInRealTime = true)
      (queued : t ∈ vex.runnableThreads ↔ 0 < thread.state.timeout)
  | suspended (blocked : thread.blocked = true) (suspended : thread.state.isSuspended = true)
      (notParked : thread.state.parked = false) (asleep : thread.state.awaken = false) (queued : t ∈ vex.runnableThreads)
  | resumed (blocked : thread.blocked = true) (suspended : thread.state.isSuspended = true)
      (notParked : thread.state.parked = false) (awake : thread.state.awaken = true) (unqueued : t ∉ vex.runnableThreads)

/-- A thread that a manager runs executes its own code under that manager, and a queued thread is
    queued once. -/
private structure Sane (vex : Vex Locks) : Prop where
  running : ∀ manager t, vex.runningThread manager = some t → ∃ thread, vex.threadRegistry t = some thread ∧
    thread.threadCurrentlyControllingManager = manager ∧ thread.isFree = true
  phase : ∀ t thread, vex.threadRegistry t = some thread → Phase vex t thread
  position : ∀ t thread, vex.threadRegistry t = some thread → thread.position = .outside ∨ thread.position = .parking
  registered : ∀ t ∈ vex.runnableThreads, ∃ thread, vex.threadRegistry t = some thread
  distinct : vex.runnableThreads.Nodup

section Invariant
variable {locking} {vex next : Vex Locks} {t : Int64} {thread after : Thread}

private theorem home_of_sane (sane : Sane vex) (t : Int64) : RunsAtHome vex t := by
  intro manager runs
  obtain ⟨thread,found,controlled,-⟩ := sane.running manager t runs
  simp [managerOf,found,controlled]

private theorem free_of_running (sane : Sane vex) (found : vex.threadRegistry t = some thread) (manager : Nat)
    (runs : vex.runningThread manager = some t) :
    thread.threadCurrentlyControllingManager = manager ∧ thread.isFree = true := by
  obtain ⟨other,foundToo,controlled,free⟩ := sane.running manager t runs
  rw [found] at foundToo
  cases foundToo
  exact ⟨controlled,free⟩

private theorem not_waiting_of_free (free : thread.isFree = true) : thread.state.isWaiting = false := by
  simp only [Thread.isFree,VexThreadState.isRunning,Bool.and_eq_true,Bool.or_eq_true,decide_eq_true_eq] at free
  obtain ⟨-,running | inSystemCall⟩ := free
  · simp [VexThreadState.isWaiting,running]
  · simp [VexThreadState.isWaiting,inSystemCall]

/-- A thread that executes its own code is neither queued nor recorded as parked. -/
private theorem idle_of_free (sane : Sane vex) (found : vex.threadRegistry t = some thread) (free : thread.isFree = true) :
    t ∉ vex.runnableThreads ∧ thread.state.parked = false := by
  cases sane.phase t thread found with
  | running free unqueued notParked => exact ⟨unqueued,notParked⟩
  | waiting position unblocked waits timed queued =>
    rw [not_waiting_of_free free] at waits
    cases waits
  | suspended blocked suspended notParked asleep queued => simp [Thread.isFree,blocked] at free
  | resumed blocked suspended notParked awake unqueued => exact ⟨unqueued,notParked⟩

private theorem not_running_of_waiting (sane : Sane vex) (found : vex.threadRegistry t = some thread)
    (waits : thread.state.isWaiting = true) (manager : Nat) : vex.runningThread manager ≠ some t := by
  intro runs
  rw [not_waiting_of_free (free_of_running sane found manager runs).2] at waits
  cases waits

/-- A phase depends on the queue only by the thread's place in it. -/
private theorem phase_of_queued (phase : Phase vex t thread) (queued : t ∈ next.runnableThreads ↔ t ∈ vex.runnableThreads) :
    Phase next t thread := by
  cases phase with
  | running free unqueued notParked => exact .running free (queued.not.mpr unqueued) notParked
  | waiting position unblocked waits timed place => exact .waiting position unblocked waits timed (queued.trans place)
  | suspended blocked suspended notParked asleep place =>
    exact .suspended blocked suspended notParked asleep (queued.mpr place)
  | resumed blocked suspended notParked awake unqueued =>
    exact .resumed blocked suspended notParked awake (queued.not.mpr unqueued)

/-- What a step of one thread has to keep. -/
private structure Moves (t : Int64) (vex next : Vex Locks) (after : Thread) : Prop where
  found : next.threadRegistry t = some after
  runs : Runs t vex next
  phase : Phase next t after
  position : after.position = .outside ∨ after.position = .parking
  distinct : next.runnableThreads.Nodup

private theorem sane_of_moves (sane : Sane vex) (keeps : ∀ x, x ≠ t → Keeps x vex next) (moves : Moves t vex next after) :
    Sane next := by
  have own {thread : Thread} (found : next.threadRegistry t = some thread) : thread = after :=
    Option.some.inj (found.symm.trans moves.found)
  constructor
  · intro manager x running
    by_cases same : x = t
    · subst same
      exact moves.runs.own manager running
    · obtain ⟨thread,found,controlled,free⟩ := sane.running manager x (moves.runs.others manager x same running)
      exact ⟨thread,(keeps x same).thread.trans found,controlled,free⟩
  · intro x thread found
    by_cases same : x = t
    · subst same
      exact own found ▸ moves.phase
    · exact phase_of_queued (sane.phase x thread ((keeps x same).thread.symm.trans found)) (keeps x same).queued
  · intro x thread found
    by_cases same : x = t
    · subst same
      exact own found ▸ moves.position
    · exact sane.position x thread ((keeps x same).thread.symm.trans found)
  · intro x queued
    by_cases same : x = t
    · subst same
      exact ⟨after,moves.found⟩
    · obtain ⟨thread,found⟩ := sane.registered x ((keeps x same).queued.mp queued)
      exact ⟨thread,(keeps x same).thread.trans found⟩
  · exact moves.distinct

/-! ## Threads that run or are pushed -/

/-- The thread runs, or it is suspended and pushed so that the scheduler resumes it. -/
private inductive RunsOrPushed (vex next : Vex Locks) (t : Int64) (after : Thread) : Prop
  | runs (free : after.isFree = true) (queue : next.runnableThreads = vex.runnableThreads)
  | pushed (blocked : after.blocked = true) (suspended : after.state.isSuspended = true)
      (timedOut : after.state.timedOut = true) (asleep : after.state.awaken = false)
      (queue : next.runnableThreads = vex.runnableThreads ++ [t])

/-- It is where it was, with the flags that it had. -/
private structure Continues (vex next : Vex Locks) (t : Int64) (thread after : Thread) : Prop where
  found : next.threadRegistry t = some after
  position : after.position = thread.position
  flags : permitOf after.state = permitOf thread.state
  outcome : RunsOrPushed vex next t after

private theorem phase_of_outcome (outcome : RunsOrPushed vex next t after) (unqueued : t ∉ vex.runnableThreads)
    (notParked : after.state.parked = false) : Phase next t after := by
  cases outcome with
  | runs free queue => exact .running free (by rwa [queue]) notParked
  | pushed blocked suspended timedOut asleep queue =>
    exact .suspended blocked suspended notParked asleep (by simp [queue])

private theorem distinct_append {threads : List Int64} (distinct : threads.Nodup) (absent : t ∉ threads) :
    (threads ++ [t]).Nodup := by
  rw [List.nodup_append]
  refine ⟨distinct,List.nodup_singleton t,fun x member y single => ?_⟩
  rw [List.mem_singleton.mp single]
  rintro rfl
  exact absent member

private theorem distinct_of_outcome (outcome : RunsOrPushed vex next t after) (unqueued : t ∉ vex.runnableThreads)
    (distinct : vex.runnableThreads.Nodup) : next.runnableThreads.Nodup := by
  cases outcome with
  | runs free queue => rwa [queue]
  | pushed blocked suspended timedOut asleep queue =>
    rw [queue]
    exact distinct_append distinct unqueued

private theorem resumable_of_suspended (found : next.threadRegistry t = some after)
    (suspended : after.state.isSuspended = true) (timedOut : after.state.timedOut = true)
    (queued : t ∈ next.runnableThreads) : Resumable next t :=
  ⟨queued,by simp [found,mayContinue,suspended,timedOut]⟩

private theorem moves_of_continues (continues : Continues vex next t thread after) (runs : Runs t vex next)
    (unqueued : t ∉ vex.runnableThreads) (notParked : thread.state.parked = false)
    (position : thread.position = .outside ∨ thread.position = .parking) (distinct : vex.runnableThreads.Nodup) :
    Moves t vex next after := by
  obtain ⟨found,same,flags,outcome⟩ := continues
  have stillNotParked : after.state.parked = false := (congrArg Permit.parked flags).trans notParked
  exact ⟨found,runs,phase_of_outcome outcome unqueued stillNotParked,same ▸ position,
    distinct_of_outcome outcome unqueued distinct⟩

private theorem setRunningThread_continues (found : vex.threadRegistry t = some thread)
    (unqueued : t ∉ vex.runnableThreads) : ∃ after, Continues vex (vex.setRunningThread t) t thread after := by
  obtain ⟨running,queue⟩ | ⟨queued,-,-⟩ | ⟨back,queue⟩ := setRunningThread_cases found
  · exact ⟨_,running,rfl,rfl,.runs rfl queue⟩
  · exact absurd queued unqueued
  · exact ⟨_,back,rfl,rfl,.pushed rfl rfl rfl rfl queue⟩

private theorem suspendCurrentThread_continues (suspends : Bool)
    (free : ∀ manager, vex.runningThread manager = some t → thread.threadCurrentlyControllingManager = manager ∧
      thread.isFree = true) (found : vex.threadRegistry t = some thread) (unqueued : t ∉ vex.runnableThreads) :
    ∃ after, Continues vex (vex.suspendCurrentThread t suspends) t thread after := by
  unfold suspendCurrentThread
  split_ifs with _ runs
  · exact ⟨_,suspend_self found,rfl,rfl,.pushed rfl rfl rfl rfl suspend_queue⟩
  · exact ⟨thread,found,rfl,rfl,.runs (free _ runs).2 rfl⟩
  · exact setRunningThread_continues found unqueued

end Invariant

/-! ## The park of a thread -/

section Parks
variable {locking} {vex next : Vex Locks} {t : Int64} {thread after : Thread}

/-- With a permit the thread goes on; without one it is recorded as parked, waits, and is pushed if
    the park is timed. -/
private theorem onPark_cases (timeout : Int64) (found : vex.threadRegistry t = some thread) :
    (thread.state.alreadyUnparked = true ∧
      (vex.onPark t timeout thread).threadRegistry t = some { thread with
        state := { thread.state with alreadyUnparked := false,parked := false }
        position := .parking } ∧
      (vex.onPark t timeout thread).runnableThreads = vex.runnableThreads ∧
      (vex.onPark t timeout thread).runningThread = vex.runningThread) ∨
    (thread.state.alreadyUnparked = false ∧
      (∃ state, (vex.onPark t timeout thread).threadRegistry t = some { thread with state,position := .parking } ∧
        permitOf state = ⟨false,true⟩ ∧ state.isWaiting = true ∧
        (0 < state.timeout → state.waitingInRealTime = true) ∧ (vex.onPark t timeout thread).runnableThreads =
          if 0 < state.timeout then vex.runnableThreads ++ [t] else vex.runnableThreads) ∧
      (vex.onPark t timeout thread).runningThread = (vex.unsetCurrentThreadFromRunningThread t).runningThread) := by
  have parking := setPosition_self .parking (onState_self (fun _ => thread.state.getAndSetUnparkedState.2) found)
  cases permit : thread.state.alreadyUnparked with
  | true =>
    have taken : thread.state.getAndSetUnparkedState =
        (true,{ thread.state with alreadyUnparked := false,parked := false }) := by
      simp [VexThreadState.getAndSetUnparkedState,permit]
    left
    unfold onPark
    simp only [taken,if_true]
    rw [taken] at parking
    exact ⟨trivial,parking,rfl,rfl⟩
  | false =>
    have recorded : thread.state.getAndSetUnparkedState =
        (false,{ thread.state with parked := true,timedWaitingObjectId := 0 }) := by
      simp [VexThreadState.getAndSetUnparkedState,permit]
    have flags : permitOf { thread.state with parked := true,timedWaitingObjectId := 0 } = ⟨false,true⟩ := by
      simp [permitOf,permit]
    right
    unfold onPark
    simp only [recorded,Bool.false_eq_true,if_false]
    rw [recorded] at parking
    by_cases timed : timeout > 0
    · simp only [timed,if_true]
      have waits := onState_self (fun state => { state.setWaitingObjectId 0 with waitingInRealTime := true }.setTimedWaiting
        timeout) parking
      refine ⟨trivial,?_,unset_congr rfl waits found rfl⟩
      rw [← unset_threadRegistry] at waits
      refine ⟨_,onState_self VexThreadState.setWaiting waits,flags,rfl,fun _ => rfl,?_⟩
      rw [if_pos (by exact timed)]
      simp [setTimedWaitingThread,pushRunnable,onState,setPosition,onThread]
    · simp only [timed,if_false]
      have waits := onState_self (fun state =>
        (((state.setTimedOut true).setTimeout (-1)).setAwakeningFromJoin false).setWaiting) parking
      refine ⟨trivial,?_,unset_congr rfl waits found rfl⟩
      rw [← unset_threadRegistry] at waits
      have untimed : ¬ (0 : Int64) < -1 := by decide
      refine ⟨_,waits,flags,rfl,fun positive => absurd positive untimed,?_⟩
      rw [if_neg (by exact untimed)]
      simp [onState,setPosition,onThread]

private theorem park_moves (timeout : Int64) (sane : Sane vex) (found : vex.threadRegistry t = some thread)
    (free : thread.isFree = true) : ∃ after, Moves t vex (vex.onPark t timeout thread) after ∧
      permitOf after.state = (permitOf thread.state).perform .park ∧
      ((permitOf thread.state).available = true → after.isFree = true ∧
          (vex.onPark t timeout thread).runnableThreads = vex.runnableThreads ∧
          (vex.onPark t timeout thread).runningThread = vex.runningThread) ∧
      ((permitOf thread.state).available = false → after.state.isWaiting = true ∧
          ∀ manager, (vex.onPark t timeout thread).runningThread manager ≠ some t) := by
  have home := home_of_sane sane t
  have unqueued := (idle_of_free sane found free).1
  have notBlocked : thread.blocked = false := by
    rw [Thread.isFree,Bool.and_eq_true,Bool.not_eq_true'] at free
    exact free.1
  obtain ⟨permit,parks,queue,running⟩ | ⟨permit,⟨state,parks,flags,waits,timed,queue⟩,running⟩ := onPark_cases timeout found
  · refine ⟨_,⟨parks,⟨fun manager x _ runs => running ▸ runs,fun manager runs => ⟨_,parks,?_⟩⟩,
      .running free (queue.symm ▸ unqueued) rfl,.inr rfl,queue.symm ▸ sane.distinct⟩,?_,fun _ => ⟨free,queue,running⟩,
      fun unavailable => ?_⟩
    · rw [running] at runs
      exact ⟨(free_of_running sane found manager runs).1,free⟩
    · simp [permitOf,Permit.perform,permit]
    · simp [permitOf,permit] at unavailable
  · refine ⟨_,⟨parks,runs_of_unset home running,.waiting rfl notBlocked waits timed ?_,.inr rfl,?_⟩,?_,fun available => ?_,
      fun _ => ⟨waits,fun manager runs => unset_own home manager (running ▸ runs)⟩⟩
    · rw [queue]
      split_ifs with positive
      · simp [positive]
      · simp [unqueued,positive]
    · rw [queue]
      split_ifs
      · exact distinct_append sane.distinct unqueued
      · exact sane.distinct
    · exact flags.trans (by simp [permitOf,Permit.perform,permit])
    · simp [permitOf,permit] at available

/-- The end of a call of a thread that runs. -/
private theorem exit_moves (moves : Moves t vex next after) (free : after.isFree = true) :
    Moves t vex (next.onVexExit t) { after with state := after.state.onVexExit,position := .outside } := by
  have exited := setPosition_self .outside (onState_self VexThreadState.onVexExit moves.found)
  refine ⟨exited,⟨moves.runs.others,fun manager running => ?_⟩,?_,.inl rfl,moves.distinct⟩
  · obtain ⟨other,found,controlled,-⟩ := moves.runs.own manager running
    rw [moves.found] at found
    cases found
    exact ⟨_,exited,controlled,free⟩
  · cases moves.phase with
    | running _ unqueued notParked => exact .running free unqueued notParked
    | waiting _ _ waits _ _ =>
      rw [not_waiting_of_free free] at waits
      cases waits
    | suspended blocked _ _ _ _ => simp [Thread.isFree,blocked] at free
    | resumed blocked _ _ _ _ => simp [Thread.isFree,blocked] at free

/-- The thread that is back from an untimed park. -/
private def back (thread : Thread) : Thread := { thread with
  state := ((thread.state.onVexEntry.setTimeout (-1)).setAwakeningFromJoin false).setTimedOut true
  position := .outside }

/-- A return with the thread queued if its timeout says so. -/
private theorem parked_moves (suspends : Bool) (sane : Sane vex) (found : vex.threadRegistry t = some thread)
    (unblocked : thread.blocked = false) (notParked : thread.state.parked = false)
    (queued : 0 < thread.state.timeout → t ∈ vex.runnableThreads) :
    ∃ after, Moves t vex (vex.onParked t suspends thread) after ∧
      permitOf after.state = (permitOf thread.state).perform .returned ∧
      (after.isFree = true ∨ Resumable (vex.onParked t suspends thread) t) := by
  have flags : permitOf thread.state = (permitOf thread.state).perform .returned := by simp [permitOf,Permit.perform,notParked]
  have outside := setPosition_self .outside (onState_self VexThreadState.onVexEntry found)
  by_cases timed : thread.state.timeout > 0
  · -- the thread waits, so it does not run, and it keeps its place in the queue
    have still : ∀ manager, vex.runningThread manager ≠ some t := by
      cases sane.phase t thread found with
      | running free unqueued _ => exact absurd (queued timed) unqueued
      | waiting _ _ waits _ _ => exact not_running_of_waiting sane found waits
      | suspended blocked _ _ _ _ =>
        rw [unblocked] at blocked
        cases blocked
      | resumed blocked _ _ _ _ =>
        rw [unblocked] at blocked
        cases blocked
    unfold onParked
    simp only [timed,if_true]
    have suspended := onState_self (fun state =>
      ({ state with waitingInRealTime := false }.setTimedOut true).setSuspended) outside
    have blocked := onThread_self (fun thread => { thread with blocked := true }) (onState_self
      VexThreadState.blockHereUntilSignaled suspended)
    exact ⟨_,⟨blocked,⟨fun _ _ _ runs => runs,fun manager runs => absurd runs (still manager)⟩,
      .suspended rfl rfl notParked rfl (queued timed),.inl rfl,sane.distinct⟩,flags,
      .inr (resumable_of_suspended blocked rfl rfl (queued timed))⟩
  · have unqueued : t ∉ vex.runnableThreads := by
      cases sane.phase t thread found with
      | running free unqueued notParked => exact unqueued
      | waiting position unblocked waits inRealTime place => exact place.not.mpr timed
      | suspended blocked suspended notParked asleep queued =>
        rw [unblocked] at blocked
        cases blocked
      | resumed blocked suspended notParked awake unqueued => exact unqueued
    unfold onParked
    simp only [timed,if_false]
    have cleared : (((vex.onState t VexThreadState.onVexEntry).setPosition t .outside).onState t fun state =>
      ((state.setTimeout (-1)).setAwakeningFromJoin false).setTimedOut true).threadRegistry t = some (back thread) :=
        onState_self _ outside
    have running : (((vex.onState t VexThreadState.onVexEntry).setPosition t .outside).onState t fun state =>
      ((state.setTimeout (-1)).setAwakeningFromJoin false).setTimedOut true).runningThread = vex.runningThread := rfl
    have queue : (((vex.onState t VexThreadState.onVexEntry).setPosition t .outside).onState t fun state =>
      ((state.setTimeout (-1)).setAwakeningFromJoin false).setTimedOut true).runnableThreads = vex.runnableThreads := rfl
    generalize ((vex.onState t VexThreadState.onVexEntry).setPosition t .outside).onState t (fun state =>
      ((state.setTimeout (-1)).setAwakeningFromJoin false).setTimedOut true) = before at *
    have free : ∀ manager, before.runningThread manager = some t →
        (back thread).threadCurrentlyControllingManager = manager ∧ (back thread).isFree = true :=
      fun manager runs => free_of_running sane found manager (running ▸ runs)
    have home : RunsAtHome before t := by
      intro manager runs
      simp [managerOf,cleared,(free manager runs).1]
    have runs := runs_from running (suspendCurrentThread_runs suspends cleared home free)
    obtain ⟨after,continues⟩ := suspendCurrentThread_continues suspends free cleared (queue ▸ unqueued)
    have moves := moves_of_continues continues (suspendCurrentThread_runs suspends cleared home free) (queue ▸ unqueued)
      notParked (.inl rfl) (queue ▸ sane.distinct)
    obtain ⟨foundAfter,-,same,outcome⟩ := continues
    generalize before.suspendCurrentThread t suspends = last at *
    cases outcome with
    | runs freeAfter queueAfter =>
      have unblockedAfter : last.isBlocked t = false := by
        rw [Thread.isFree,Bool.and_eq_true,Bool.not_eq_true'] at freeAfter
        simp [isBlocked,foundAfter,freeAfter.1]
      rw [if_neg (by simp [unblockedAfter])]
      exact ⟨_,exit_moves ⟨foundAfter,runs,moves.phase,moves.position,moves.distinct⟩ freeAfter,same.trans flags,
        .inl freeAfter⟩
    | pushed blocked suspended timedOut asleep queueAfter =>
      rw [if_pos (by simp [isBlocked,foundAfter,blocked])]
      exact ⟨after,⟨foundAfter,runs,moves.phase,moves.position,moves.distinct⟩,same.trans flags,
        .inr (resumable_of_suspended foundAfter suspended timedOut (by simp [queueAfter]))⟩

/-- An unpark leaves a permit, or ends the record of the park; it does not touch the queue. -/
private theorem unpark_moves (sane : Sane vex) (found : vex.threadRegistry t = some thread) :
    ∃ after, Moves t vex (vex.onUnpark t thread) after ∧ permitOf after.state = (permitOf thread.state).perform .unpark ∧
      (vex.onUnpark t thread).runnableThreads = vex.runnableThreads ∧
      (vex.onUnpark t thread).runningThread = vex.runningThread ∧ (thread.isFree = true → after.isFree = true) ∧
      (thread.state.parked = true → after.position = .parking ∧ after.blocked = false ∧
        after.state.isWaiting = true ∧ after.state.parked = false) := by
  cases parked : thread.state.parked with
  | false =>
    rw [onUnpark_of_notParked t vex parked]
    have flagged := onState_self (fun _ => { thread.state with alreadyUnparked := true }) found
    refine ⟨_,⟨flagged,⟨fun _ _ _ runs => runs,fun manager runs => ?_⟩,?_,sane.position t thread found,sane.distinct⟩,
      ?_,rfl,rfl,id,nofun⟩
    · obtain ⟨controlled,free⟩ := free_of_running sane found manager runs
      exact ⟨_,flagged,controlled,free⟩
    · cases sane.phase t thread found with
      | running free unqueued notParked => exact .running free unqueued notParked
      | waiting position unblocked waits timed queued => exact .waiting position unblocked waits timed queued
      | suspended blocked suspended notParked asleep queued => exact .suspended blocked suspended notParked asleep queued
      | resumed blocked suspended notParked awake unqueued => exact .resumed blocked suspended notParked awake unqueued
    · simp [permitOf,Permit.perform,parked]
  | true =>
    have waiting : thread.position = .parking ∧ thread.blocked = false ∧ thread.state.isWaiting = true ∧
        (0 < thread.state.timeout → thread.state.waitingInRealTime = true) ∧
        (t ∈ vex.runnableThreads ↔ 0 < thread.state.timeout) := by
      cases sane.phase t thread found with
      | waiting position unblocked waits timed queued => exact ⟨position,unblocked,waits,timed,queued⟩
      | running _ _ notParked | suspended _ _ notParked _ _ | resumed _ _ notParked _ _ =>
        rw [parked] at notParked
        cases notParked
    obtain ⟨position,unblocked,waits,timed,queued⟩ := waiting
    have cleared : thread.state.getAndSetParkedState =
        (true,{ thread.state with alreadyUnparked := false,parked := false }) := by
      simp [VexThreadState.getAndSetParkedState,parked]
    have ends : (permitOf thread.state).perform .unpark = ⟨false,false⟩ := by simp [permitOf,Permit.perform,parked]
    have flags := onState_self (fun _ => { thread.state with alreadyUnparked := false,parked := false }) found
    have still := not_running_of_waiting sane found waits
    have notFree : ¬ thread.isFree = true := fun free => by
      rw [not_waiting_of_free free] at waits
      cases waits
    unfold onUnpark
    simp only [cleared,if_true]
    by_cases inTime : thread.state.timeout > 0
    · simp only [inTime,if_true]
      have woken := onState_self (fun state => state.setTimedOut false) flags
      exact ⟨_,⟨woken,⟨fun _ _ _ runs => runs,fun manager runs => absurd runs (still manager)⟩,
        .waiting position unblocked waits timed queued,.inr position,sane.distinct⟩,ends.symm,rfl,rfl,fun free => absurd free notFree,fun _ => ⟨position,unblocked,waits,rfl⟩⟩
    · simp only [inTime,if_false]
      have woken := onWrappedWaitingInterrupt_self flags
      rw [VexThreadState.beforeThreadInterrupt_eq] at woken
      have untimed : ¬ 0 < if thread.state.timeout < 0 then 0 else thread.state.timeout := by split_ifs <;> grind
      exact ⟨_,⟨woken,⟨fun _ _ _ runs => runs,fun manager runs => absurd runs (still manager)⟩,
        .waiting position unblocked rfl (fun positive => absurd positive untimed) (iff_of_false (queued.not.mpr inTime) untimed),
        .inr position,sane.distinct⟩,ends.symm,rfl,rfl,fun free => absurd free notFree,
        fun _ => ⟨position,unblocked,rfl,rfl⟩⟩

/-! ## The other steps -/

private def spawned (manager : Nat) (timedWaitingObjectId : Int64) : Thread where
  state := .init timedWaitingObjectId
  threadCurrentlyControllingManager := manager
  blocked := false
  position := .outside

private theorem spawn_moves (manager : Nat) (timedWaitingObjectId : Int64) (suspends : Bool) (sane : Sane vex)
    (unregistered : vex.threadRegistry t = none) :
    ∃ after, Moves t vex (vex.onThreadSpawn t manager timedWaitingObjectId suspends) after ∧
      permitOf after.state = ⟨false,false⟩ := by
  have still (manager : Nat) : vex.runningThread manager ≠ some t := by
    intro runs
    obtain ⟨thread,found,-⟩ := sane.running manager t runs
    rw [unregistered] at found
    cases found
  have unqueued : t ∉ vex.runnableThreads := by
    intro queued
    obtain ⟨thread,found⟩ := sane.registered t queued
    rw [unregistered] at found
    cases found
  unfold onThreadSpawn
  have added : (vex.setThread t (some (spawned manager timedWaitingObjectId))).threadRegistry t =
      some (spawned manager timedWaitingObjectId) := Function.update_self ..
  have running : (vex.setThread t (some (spawned manager timedWaitingObjectId))).runningThread = vex.runningThread := rfl
  have queue : (vex.setThread t (some (spawned manager timedWaitingObjectId))).runnableThreads = vex.runnableThreads := rfl
  change ∃ after, Moves t vex ((vex.setThread t (some (spawned manager timedWaitingObjectId))).suspendCurrentThread t
    suspends) after ∧ _
  generalize vex.setThread t (some (spawned manager timedWaitingObjectId)) = before at *
  have home : RunsAtHome before t := fun manager runs => absurd (running ▸ runs) (still manager)
  obtain ⟨after,continues⟩ := suspendCurrentThread_continues suspends
    (fun manager runs => absurd (running ▸ runs) (still manager)) added (queue ▸ unqueued)
  have runs := suspendCurrentThread_runs suspends added home fun manager runs => absurd (running ▸ runs) (still manager)
  have moves := moves_of_continues continues runs (queue ▸ unqueued) rfl (.inl rfl) (queue ▸ sane.distinct)
  exact ⟨after,⟨moves.found,runs_from running runs,moves.phase,moves.position,moves.distinct⟩,continues.flags⟩

private theorem suspend_moves (sane : Sane vex) (found : vex.threadRegistry t = some thread) (free : thread.isFree = true) :
    ∃ after, Moves t vex (vex.suspendThread t) after ∧ permitOf after.state = permitOf thread.state := by
  obtain ⟨unqueued,notParked⟩ := idle_of_free sane found free
  have queue : (vex.suspendThread t).runnableThreads = vex.runnableThreads ++ [t] := by
    simp [suspendThread,onBlockedWaitingInVex,onState,setBlocked,onThread,pushRunnable]
  exact ⟨_,⟨suspendThread_self found,runs_of_unset (home_of_sane sane t) rfl,
    .suspended rfl rfl notParked rfl (by simp [queue]),sane.position t thread found,
    queue ▸ distinct_append sane.distinct unqueued⟩,rfl⟩

/-- A thread that ends runs, so it is not queued, and no manager runs it afterwards. -/
private theorem ended_sane (sane : Sane vex) (found : vex.threadRegistry t = some thread) (free : thread.isFree = true) :
    Sane (vex.onThreadEnd t) := by
  have unqueued := (idle_of_free sane found free).1
  have queue : (vex.onThreadEnd t).runnableThreads = vex.runnableThreads := unset_runnableThreads
  have others {x : Int64} (other : x ≠ t) : (vex.onThreadEnd t).threadRegistry x = vex.threadRegistry x :=
    (onThreadEnd_keeps other).thread
  have absent : (vex.onThreadEnd t).threadRegistry t = none := Function.update_self ..
  have other {x : Int64} {thread : Thread} (present : (vex.onThreadEnd t).threadRegistry x = some thread) : x ≠ t := by
    rintro rfl
    rw [absent] at present
    cases present
  constructor
  · intro manager x runs
    have apart : x ≠ t := by
      rintro rfl
      exact unset_own (home_of_sane sane x) manager runs
    obtain ⟨thread,present,rest⟩ := sane.running manager x (unset_others runs)
    exact ⟨thread,(others apart).trans present,rest⟩
  · intro x thread present
    exact phase_of_queued (sane.phase x thread ((others (other present)).symm.trans present)) (by rw [queue])
  · intro x thread present
    exact sane.position x thread ((others (other present)).symm.trans present)
  · intro x queued
    rw [queue] at queued
    have apart : x ≠ t := by
      rintro rfl
      exact unqueued queued
    obtain ⟨thread,present⟩ := sane.registered x queued
    exact ⟨thread,(others apart).trans present⟩
  · rw [queue]
    exact sane.distinct

/-- A manager pushes a popped thread back, or resumes it. -/
private theorem continue_moves {manager : Nat} {leapIsValid : Bool} (sane : Sane vex)
    (found : vex.threadRegistry t = some thread) (continued : vex.continueThread t manager leapIsValid = some next) :
    ∃ after, Moves t vex next after ∧ permitOf after.state = permitOf thread.state := by
  have popped : t ∉ vex.runnableThreads.erase t := sane.distinct.not_mem_erase
  have distinct : (vex.runnableThreads.erase t).Nodup := sane.distinct.erase t
  -- a queued thread does not run
  have still (queued : t ∈ vex.runnableThreads) (manager : Nat) : vex.runningThread manager ≠ some t := by
    intro runs
    exact (idle_of_free sane found (free_of_running sane found manager runs).2).1 queued
  have back (queued : t ∈ vex.runnableThreads) : Moves t vex ((vex.popRunnable t).pushRunnable t) thread := by
    have again : t ∈ ((vex.popRunnable t).pushRunnable t).runnableThreads := by simp [pushRunnable]
    exact ⟨found,⟨fun _ _ _ runs => runs,fun manager runs => absurd runs (still queued manager)⟩,
      phase_of_queued (sane.phase t thread found) (iff_of_true again queued),sane.position t thread found,
      distinct_append distinct popped⟩
  unfold continueThread at continued
  simp only [found] at continued
  split_ifs at continued with queued suspended mayRun timed waiting
  · have popping : (vex.popRunnable t).threadRegistry t = some thread := found
    obtain ⟨blocked,queue,resumed⟩ := resumeThread_self popping continued
    have running : next.runningThread = vex.runningThread := by
      simp only [resumeThread,popping,blocked,if_true,Option.some.injEq] at continued
      rw [← continued]
      rfl
    have notParked : thread.state.parked = false := by
      cases sane.phase t thread found with
      | waiting _ unblocked _ _ _ =>
        rw [blocked] at unblocked
        cases unblocked
      | running _ _ notParked | suspended _ _ notParked _ _ | resumed _ _ notParked _ _ => exact notParked
    exact ⟨_,⟨resumed,⟨fun _ _ _ runs => running ▸ runs,fun manager runs => absurd (running ▸ runs) (still queued manager)⟩,
      .resumed blocked suspended notParked rfl (queue ▸ popped),sane.position t thread found,queue ▸ distinct⟩,rfl⟩
  · cases continued
    exact ⟨thread,back queued,rfl⟩
  · cases sane.phase t thread found with
    | waiting position unblocked waits inRealTime place =>
      rw [VexThreadState.isTimedWaiting,Bool.and_eq_true,decide_eq_true_eq] at timed
      simp only [interruptTimedWaitingThread,inRealTime timed.2,Bool.not_true,Bool.and_false,Bool.false_eq_true,if_false,
        Option.some.injEq] at continued
      subst continued
      exact ⟨thread,back queued,rfl⟩
    | running _ unqueued _ | resumed _ _ _ _ unqueued => exact absurd queued unqueued
    | suspended _ isSuspended _ _ _ => exact absurd isSuspended suspended
  · cases sane.phase t thread found with
    | waiting position unblocked waits inRealTime place =>
      have positive := place.mp queued
      simp [VexThreadState.isTimedWaiting,waits,positive] at timed
    | running _ unqueued _ | resumed _ _ _ _ unqueued => exact absurd queued unqueued
    | suspended _ isSuspended _ _ _ => exact absurd isSuspended suspended

/-- A thread that was resumed runs, or is pushed again. -/
private theorem return_moves (sane : Sane vex) (found : vex.threadRegistry t = some thread)
    (blocked : thread.blocked = true) (awake : thread.state.awaken = true) :
    ∃ after, Moves t vex (vex.returnFromBlock locking t thread) after ∧ permitOf after.state = permitOf thread.state := by
  obtain ⟨unqueued,notParked⟩ : t ∉ vex.runnableThreads ∧ thread.state.parked = false := by
    cases sane.phase t thread found with
    | running _ unqueued notParked | resumed _ _ notParked _ unqueued => exact ⟨unqueued,notParked⟩
    | waiting _ unblocked _ _ _ =>
      rw [blocked] at unblocked
      cases unblocked
    | suspended _ _ _ asleep _ =>
      rw [awake] at asleep
      cases asleep
  have position := sane.position t thread found
  obtain ⟨after,continues⟩ := setRunningThread_continues found unqueued
  have moves := moves_of_continues continues (setRunningThread_runs found (home_of_sane sane t)) unqueued notParked position
    sane.distinct
  obtain ⟨foundAfter,-,same,outcome⟩ := continues
  unfold returnFromBlock
  dsimp only
  generalize vex.setRunningThread t = last at *
  cases outcome with
  | runs free queue =>
    have unblocked : last.isBlocked t = false := by
      rw [Thread.isFree,Bool.and_eq_true,Bool.not_eq_true'] at free
      simp [isBlocked,foundAfter,free.1]
    rw [if_neg (by simp [unblocked])]
    obtain outside | parking := position
    · simp only [outside]
      exact ⟨_,exit_moves moves free,same⟩
    · simp only [parking]
      exact ⟨after,moves,same⟩
  | pushed blockedAfter _ _ _ _ =>
    rw [if_pos (by simp [isBlocked,foundAfter,blockedAfter])]
    exact ⟨after,moves,same⟩

end Parks

/-! ## The automaton in a run -/

section Run
variable {locking} {vex next : Vex Locks} {t : Int64} {thread : Thread} {event : Event}

private theorem named_of_operation {x : Int64} (named : event.thread = some t) (other : x ≠ t) :
    operationOf x event = none := by
  cases event with
  | park u timeout | parked u suspends | unpark u =>
    cases named
    exact if_neg (Ne.symm other)
  | _ => rfl

/-- The flags of the other threads are as before. -/
private theorem permits_of_own (named : event.thread = some t) (keeps : ∀ x, x ≠ t → Keeps x vex next)
    (own : ∀ thread after, vex.threadRegistry t = some thread → next.threadRegistry t = some after →
      permitOf after.state = (permitOf thread.state).performs (operationOf t event).toList) :
    ∀ x thread after, vex.threadRegistry x = some thread → next.threadRegistry x = some after →
      permitOf after.state = (permitOf thread.state).performs (operationOf x event).toList := by
  intro x thread after found foundAfter
  by_cases same : x = t
  · subst same
    exact own thread after found foundAfter
  · rw [(keeps x same).thread,found] at foundAfter
    cases foundAfter
    rw [named_of_operation named same]
    rfl

/-- The steps that are none of the automaton's. -/
private theorem follows_of_silent (named : event.thread = some t) (silent : operationOf t event = none)
    (keeps : ∀ x, x ≠ t → Keeps x vex next)
    (own : ∀ thread after, vex.threadRegistry t = some thread → next.threadRegistry t = some after →
      permitOf after.state = permitOf thread.state) : Follows locking vex next event := by
  have notOwn (u : Int64) (operation : operationOf u event ≠ none) (thread : event.thread = some u) : False := by
    rw [named] at thread
    cases thread
    exact operation silent
  have silentPermits := permits_of_own named keeps fun thread after found foundAfter => by
    rw [silent]
    exact own thread after found foundAfter
  refine ⟨silentPermits,?_,?_,?_,?_,?_⟩
  · rintro u timeout thread after rfl
    exact (notOwn u (by simp [operationOf]) rfl).elim
  · rintro u timeout thread after rfl
    exact (notOwn u (by simp [operationOf]) rfl).elim
  · rintro u suspends after rfl
    exact (notOwn u (by simp [operationOf]) rfl).elim
  · rintro u thread rfl
    exact (notOwn u (by simp [operationOf]) rfl).elim
  · rintro u thread after rfl
    exact (notOwn u (by simp [operationOf]) rfl).elim

private theorem step_keeps_others (stepped : vex.step locking event = some next) (parks : isParking event = true)
    (named : event.thread = some t) (x : Int64) (other : x ≠ t) : Keeps x vex next := by
  refine step_keeps stepped (fun own => other ?_) ?_
  · rw [named] at own
    cases own
    rfl
  · cases event with
    | spawn _ _ _ _ | ended _ | suspend _ | suspendLoose _ | park _ _ | parked _ _ | unpark _ | continueThread _ _ _
    | returnFromBlock _ => rfl
    | _ => cases parks

private theorem same_of_moves {after before last : Thread} (found : vex.threadRegistry t = some thread)
    (moves : Moves t vex next after) (foundBefore : vex.threadRegistry t = some before)
    (foundLast : next.threadRegistry t = some last) : before = thread ∧ last = after :=
  ⟨Option.some.inj (foundBefore.symm.trans found),Option.some.inj (foundLast.symm.trans moves.found)⟩

/-- The thread of a silent step moves and keeps its flags. -/
private theorem silent_step {after : Thread} (sane : Sane vex) (named : event.thread = some t)
    (silent : operationOf t event = none) (keeps : ∀ x, x ≠ t → Keeps x vex next)
    (found : vex.threadRegistry t = some thread) (moves : Moves t vex next after)
    (flags : permitOf after.state = permitOf thread.state) : Sane next ∧ Follows locking vex next event := by
  refine ⟨sane_of_moves sane keeps moves,follows_of_silent named silent keeps fun before last foundBefore foundLast => ?_⟩
  obtain ⟨rfl,rfl⟩ := same_of_moves found moves foundBefore foundLast
  exact flags

private theorem park_follows (timeout : Int64) (sane : Sane vex) (found : vex.threadRegistry t = some thread)
    (free : thread.isFree = true) : Sane (vex.onPark t timeout thread) ∧
      Follows locking vex (vex.onPark t timeout thread) (.park t timeout) := by
  have keeps (x : Int64) (other : x ≠ t) : Keeps x vex (vex.onPark t timeout thread) := onPark_keeps timeout thread other
  obtain ⟨after,moves,flags,taken,parks⟩ := park_moves timeout sane found free
  generalize vex.onPark t timeout thread = next at *
  have performed : ∀ before last, vex.threadRegistry t = some before → next.threadRegistry t = some last →
      permitOf last.state = (permitOf before.state).performs (operationOf t (.park t timeout)).toList := by
    intro before last foundBefore foundLast
    obtain ⟨rfl,rfl⟩ := same_of_moves found moves foundBefore foundLast
    simpa [operationOf,Permit.performs] using flags
  refine ⟨sane_of_moves sane keeps moves,permits_of_own rfl keeps performed,?_,?_,
    (fun _ _ _ same => by cases same),(fun _ _ same => by cases same),(fun _ _ _ same => by cases same)⟩
  · intro u _ before last same foundBefore foundLast
    cases same
    obtain ⟨rfl,rfl⟩ := same_of_moves found moves foundBefore foundLast
    exact taken
  · intro u _ before last same foundBefore foundLast
    cases same
    obtain ⟨rfl,rfl⟩ := same_of_moves found moves foundBefore foundLast
    exact parks

private theorem parked_follows (suspends : Bool) (sane : Sane vex) (found : vex.threadRegistry t = some thread)
    (unblocked : thread.blocked = false) (notParked : thread.state.parked = false)
    (queued : 0 < thread.state.timeout → t ∈ vex.runnableThreads) : Sane (vex.onParked t suspends thread) ∧
      Follows locking vex (vex.onParked t suspends thread) (.parked t suspends) := by
  have keeps (x : Int64) (other : x ≠ t) : Keeps x vex (vex.onParked t suspends thread) := onParked_keeps suspends thread other
  obtain ⟨after,moves,flags,ends⟩ := parked_moves suspends sane found unblocked notParked queued
  generalize vex.onParked t suspends thread = next at *
  have performed : ∀ before last, vex.threadRegistry t = some before → next.threadRegistry t = some last →
      permitOf last.state = (permitOf before.state).performs (operationOf t (.parked t suspends)).toList := by
    intro before last foundBefore foundLast
    obtain ⟨rfl,rfl⟩ := same_of_moves found moves foundBefore foundLast
    simpa [operationOf,Permit.performs] using flags
  refine ⟨sane_of_moves sane keeps moves,permits_of_own rfl keeps performed,
    (fun _ _ _ _ same => by cases same),(fun _ _ _ _ same => by cases same),?_,(fun _ _ same => by cases same),(fun _ _ _ same => by cases same)⟩
  intro u _ last same foundLast
  cases same
  rw [moves.found] at foundLast
  cases foundLast
  exact ends

private theorem unpark_follows (sane : Sane vex) (found : vex.threadRegistry t = some thread) :
    Sane (vex.onUnpark t thread) ∧ Follows locking vex (vex.onUnpark t thread) (.unpark t) := by
  have keeps (x : Int64) (other : x ≠ t) : Keeps x vex (vex.onUnpark t thread) := onUnpark_keeps thread other
  obtain ⟨after,moves,flags,queue,running,spared,wakes⟩ := unpark_moves sane found
  generalize vex.onUnpark t thread = next at *
  have saneNext := sane_of_moves sane keeps moves
  have performed : ∀ before last, vex.threadRegistry t = some before → next.threadRegistry t = some last →
      permitOf last.state = (permitOf before.state).performs (operationOf t (.unpark t)).toList := by
    intro before last foundBefore foundLast
    obtain ⟨rfl,rfl⟩ := same_of_moves found moves foundBefore foundLast
    simpa [operationOf,Permit.performs] using flags
  refine ⟨saneNext,permits_of_own rfl keeps performed,
    (fun _ _ _ _ same => by cases same),(fun _ _ _ _ same => by cases same),(fun _ _ _ same => by cases same),?_,?_⟩
  · intro u before same foundBefore parked suspends
    cases same
    rw [found] at foundBefore
    cases foundBefore
    obtain ⟨position,unblocked,waits,notParked⟩ := wakes parked
    have queued : 0 < after.state.timeout → t ∈ next.runnableThreads := by
      intro positive
      cases moves.phase with
      | waiting _ _ _ _ place => exact place.mpr positive
      | suspended blocked _ _ _ _ | resumed blocked _ _ _ _ =>
        rw [unblocked] at blocked
        cases blocked
      | running free _ _ =>
        rw [not_waiting_of_free free] at waits
        cases waits
    obtain ⟨last,lastMoves,-,ends⟩ := parked_moves suspends saneNext moves.found unblocked notParked queued
    exact ⟨_,last,by simp [step,actor,moves.found,unblocked,position,Option.filter],lastMoves.found,ends⟩
  · intro u before last same foundBefore foundLast
    cases same
    obtain ⟨rfl,rfl⟩ := same_of_moves found moves foundBefore foundLast
    exact ⟨queue,running,spared⟩

/-- A step from a sane state that meets the condition is sane and follows the automaton. -/
private theorem follows_of_step (sane : Sane vex) (returns : ReturnsUnparked vex event)
    (moved : parkingStep locking vex event = some next) : Sane next ∧ Follows locking vex next event := by
  obtain ⟨parks,stepped⟩ : isParking event = true ∧ vex.step locking event = some next := by
    unfold parkingStep at moved
    split_ifs at moved with parks
    exact ⟨parks,moved⟩
  have keeps {t : Int64} (named : event.thread = some t) := step_keeps_others stepped parks named
  cases event with
  | spawn t manager timedWaitingObjectId suspends =>
    simp only [step,Option.ite_none_right_eq_some,Option.some.injEq] at stepped
    obtain ⟨⟨-,unregistered⟩,rfl⟩ := stepped
    obtain ⟨after,moves,-⟩ := spawn_moves manager timedWaitingObjectId suspends sane unregistered
    refine ⟨sane_of_moves sane (keeps rfl) moves,follows_of_silent rfl rfl (keeps rfl) fun thread _ found _ => ?_⟩
    rw [unregistered] at found
    cases found
  | ended t =>
    obtain ⟨thread,acting,rfl⟩ := Option.map_eq_some_iff.mp stepped
    obtain ⟨found,free⟩ := actor_eq acting
    have absent : (vex.onThreadEnd t).threadRegistry t = none := Function.update_self ..
    refine ⟨ended_sane sane found free,follows_of_silent rfl rfl (keeps rfl) fun _ after _ foundAfter => ?_⟩
    rw [absent] at foundAfter
    cases foundAfter
  | suspend t =>
    simp only [step,Option.ite_none_right_eq_some] at stepped
    obtain ⟨thread,acting,rfl⟩ := Option.map_eq_some_iff.mp stepped.2
    obtain ⟨found,free⟩ := actor_eq acting
    obtain ⟨after,moves,flags⟩ := suspend_moves sane found free
    exact silent_step sane rfl rfl (keeps rfl) found moves flags
  | suspendLoose t =>
    obtain ⟨thread,acting,rfl⟩ := Option.map_eq_some_iff.mp stepped
    obtain ⟨found,loose⟩ := actor_eq acting
    simp only [Bool.and_eq_true,Bool.not_eq_true',decide_eq_true_eq] at loose
    obtain ⟨⟨unblocked,notRunning⟩,notParking⟩ := loose
    cases sane.phase t thread found with
    | running free _ _ => simp [Thread.isFree,notRunning] at free
    | waiting position _ _ _ _ => exact absurd position notParking
    | suspended blocked _ _ _ _ | resumed blocked _ _ _ _ =>
      rw [unblocked] at blocked
      cases blocked
  | park t timeout =>
    obtain ⟨thread,acting,rfl⟩ := Option.map_eq_some_iff.mp stepped
    obtain ⟨found,outside⟩ := actor_eq acting
    rw [Thread.isOutside,Bool.and_eq_true] at outside
    exact park_follows timeout sane found outside.1
  | parked t suspends =>
    obtain ⟨thread,acting,rfl⟩ := Option.map_eq_some_iff.mp stepped
    obtain ⟨found,parking⟩ := actor_eq acting
    rw [Bool.and_eq_true,Bool.not_eq_true',decide_eq_true_eq] at parking
    obtain ⟨notParked,queued⟩ := returns thread found parking.1 parking.2
    exact parked_follows suspends sane found parking.1 notParked queued
  | unpark t =>
    cases found : vex.threadRegistry t with
    | none =>
      simp only [step,found] at stepped
      cases stepped
      refine ⟨sane,permits_of_own rfl (keeps rfl) fun thread _ present => ?_,(fun _ _ _ _ same => by cases same),
        (fun _ _ _ _ same => by cases same),(fun _ _ _ same => by cases same),?_,?_⟩
      · rw [found] at present
        cases present
      · intro u thread same present
        cases same
        rw [found] at present
        cases present
      · intro u thread _ same present
        cases same
        rw [found] at present
        cases present
    | some thread =>
      simp only [step,found] at stepped
      cases stepped
      exact unpark_follows sane found
  | continueThread manager t leapIsValid =>
    cases found : vex.threadRegistry t with
    | none => simp [step,continueThread,found] at stepped
    | some thread =>
      obtain ⟨after,moves,flags⟩ := continue_moves sane found stepped
      exact silent_step sane rfl rfl (keeps rfl) found moves flags
  | returnFromBlock t =>
    obtain ⟨thread,acting,rfl⟩ := Option.map_eq_some_iff.mp stepped
    obtain ⟨found,resumed⟩ := actor_eq acting
    rw [Bool.and_eq_true] at resumed
    obtain ⟨after,moves,flags⟩ := return_moves sane found resumed.1 resumed.2
    exact silent_step sane rfl rfl (keeps rfl) found moves flags
  | _ => cases parks

/-! ## The converse -/

/-- The flags that a return leaves are those that it finds, and a timed one blocks its thread. -/
private theorem onParked_flags (suspends : Bool) (found : vex.threadRegistry t = some thread) :
    ∃ after, (vex.onParked t suspends thread).threadRegistry t = some after ∧
      permitOf after.state = permitOf thread.state ∧ (0 < thread.state.timeout → after.isFree = false ∧
        (vex.onParked t suspends thread).runnableThreads = vex.runnableThreads) := by
  have outside := setPosition_self .outside (onState_self VexThreadState.onVexEntry found)
  by_cases timed : thread.state.timeout > 0
  · unfold onParked
    simp only [timed,if_true]
    have suspended := onState_self (fun state =>
      ({ state with waitingInRealTime := false }.setTimedOut true).setSuspended) outside
    exact ⟨_,onThread_self (fun thread => { thread with blocked := true }) (onState_self
      VexThreadState.blockHereUntilSignaled suspended),rfl,fun _ => ⟨rfl,rfl⟩⟩
  · unfold onParked
    simp only [timed,if_false]
    have cleared : (((vex.onState t VexThreadState.onVexEntry).setPosition t .outside).onState t fun state =>
      ((state.setTimeout (-1)).setAwakeningFromJoin false).setTimedOut true).threadRegistry t = some (back thread) :=
        onState_self _ outside
    generalize ((vex.onState t VexThreadState.onVexEntry).setPosition t .outside).onState t (fun state =>
      ((state.setTimeout (-1)).setAwakeningFromJoin false).setTimedOut true) = before at *
    obtain ⟨after,now,same⟩ : ∃ after, (before.suspendCurrentThread t suspends).threadRegistry t = some after ∧
        permitOf after.state = permitOf thread.state := by
      obtain ⟨pushed,-⟩ | same | running := suspendCurrentThread_cases suspends cleared
      · exact ⟨_,pushed,rfl⟩
      · exact ⟨back thread,by rw [same,cleared],rfl⟩
      · rw [running]
        obtain ⟨runs,-⟩ | ⟨-,again,-⟩ | ⟨pushed,-⟩ := setRunningThread_cases cleared
        · exact ⟨_,runs,rfl⟩
        · exact ⟨_,again,rfl⟩
        · exact ⟨_,pushed,rfl⟩
    split_ifs
    · exact ⟨after,now,same,False.elim⟩
    · exact ⟨_,setPosition_self .outside (onState_self VexThreadState.onVexExit now),same,False.elim⟩

/-- A step that follows the automaton meets the condition. -/
private theorem returns_of_follows (follows : FollowsAutomaton locking vex event) : ReturnsUnparked vex event := by
  cases event with
  | parked t suspends =>
    intro thread found unblocked position
    have stepped : parkingStep locking vex (.parked t suspends) = some (vex.onParked t suspends thread) := by
      simp [parkingStep,isParking,step,actor,found,unblocked,position,Option.filter]
    have automaton := follows _ stepped
    obtain ⟨after,now,same,timed⟩ := onParked_flags suspends found
    refine ⟨?_,fun positive => ?_⟩
    · have performed := automaton.permits t thread after found now
      rw [same] at performed
      exact (congrArg Permit.parked performed).trans (by simp [operationOf,Permit.performs,Permit.perform])
    · obtain ⟨blocked,queue⟩ := timed positive
      obtain free | resumable := automaton.ends t suspends after rfl now
      · rw [blocked] at free
        cases free
      · exact queue ▸ resumable.queued
  | _ => trivial

/-! ## The permit of a thread in a run -/

private theorem unregistered_step (absent : vex.threadRegistry t = none)
    (notSpawned : ∀ manager timedWaitingObjectId suspends, event ≠ .spawn t manager timedWaitingObjectId suspends)
    (moved : parkingStep locking vex event = some next) : next.threadRegistry t = none := by
  obtain ⟨parks,stepped⟩ : isParking event = true ∧ vex.step locking event = some next := by
    unfold parkingStep at moved
    split_ifs at moved with parks
    exact ⟨parks,moved⟩
  by_cases own : event.thread = some t
  · cases event with
    | spawn u manager timedWaitingObjectId suspends =>
      cases own
      exact absurd rfl (notSpawned manager timedWaitingObjectId suspends)
    | unpark u =>
      cases own
      simp only [step,absent] at stepped
      cases stepped
      exact absent
    | ended u | suspend u | suspendLoose u | park u timeout | parked u suspends | continueThread manager u leapIsValid
    | returnFromBlock u =>
      cases own
      simp [step,actor,absent,continueThread] at stepped
    | _ => cases parks
  · cases named : event.thread with
    | none => cases event with
      | signal _ _ | broadcast _ _ => cases parks
      | _ => cases named
    | some u =>
      have other : t ≠ u := by
        rintro rfl
        exact own named
      exact (step_keeps_others stepped parks named t other).thread.trans absent

private theorem unregistered_run {events : List Event} (absent : vex.threadRegistry t = none)
    (notSpawned : ∀ manager timedWaitingObjectId suspends, .spawn t manager timedWaitingObjectId suspends ∉ events)
    (executed : run (parkingStep locking) vex events = some next) : next.threadRegistry t = none := by
  induction events generalizing vex with
  | nil =>
    cases executed
    exact absent
  | cons event rest ih =>
    obtain ⟨middle,stepped,remaining⟩ := (run_cons vex event rest next).mp executed
    refine ih (unregistered_step absent (fun manager timedWaitingObjectId suspends same => ?_) stepped)
      (fun manager timedWaitingObjectId suspends member =>
        notSpawned manager timedWaitingObjectId suspends (List.mem_cons_of_mem event member)) remaining
    exact notSpawned manager timedWaitingObjectId suspends (same ▸ List.mem_cons_self)

private theorem permits_of_run {events : List Event} {after : Thread}
    (follows : Meets (parkingStep locking) (FollowsAutomaton locking) vex events)
    (notSpawned : ∀ manager timedWaitingObjectId suspends, .spawn t manager timedWaitingObjectId suspends ∉ events)
    (executed : run (parkingStep locking) vex events = some next) (found : vex.threadRegistry t = some thread)
    (foundAfter : next.threadRegistry t = some after) :
    permitOf after.state = (permitOf thread.state).performs (events.filterMap (operationOf t)) := by
  induction events generalizing vex thread with
  | nil =>
    cases executed
    rw [found] at foundAfter
    cases foundAfter
    rfl
  | cons event rest ih =>
    obtain ⟨middle,stepped,remaining⟩ := (run_cons vex event rest next).mp executed
    have later : ∀ manager timedWaitingObjectId suspends, .spawn t manager timedWaitingObjectId suspends ∉ rest :=
      fun manager timedWaitingObjectId suspends member =>
        notSpawned manager timedWaitingObjectId suspends (List.mem_cons_of_mem event member)
    cases between : middle.threadRegistry t with
    | none =>
      rw [unregistered_run between later remaining] at foundAfter
      cases foundAfter
    | some current =>
      have first := (follows.1 middle stepped).permits t thread current found between
      have split : (event :: rest).filterMap (operationOf t) =
          (operationOf t event).toList ++ rest.filterMap (operationOf t) := by
        cases operation : operationOf t event <;> simp [List.filterMap_cons,operation]
      rw [split,Permit.performs_append,← first]
      exact ih (follows.2 middle stepped) later remaining between

private theorem sane_start (locks : Locks) : Sane (Vex.start locks) :=
  ⟨fun _ _ runs => (by cases runs),fun _ _ found => (by cases found),fun _ _ found => (by cases found),
    fun _ queued => (by cases queued),List.nodup_nil⟩

/-- The parks of a run follow the automaton exactly if every park that returns is no longer recorded,
    and its thread is queued if the timeout says so; then the flags of a thread are what the
    automaton says of its parks, returns and unparks. -/
theorem parks_follow_automaton_iff (locking : LockOperations Locks) (locks : Locks) (events : List Event) :
    (Meets (parkingStep locking) ReturnsUnparked (Vex.start locks) events ↔
      Meets (parkingStep locking) (FollowsAutomaton locking) (Vex.start locks) events) ∧
    ∀ (before rest : List Event) (vex next : Vex Locks) (t : Int64) (thread after : Thread), events = before ++ rest →
      Meets (parkingStep locking) ReturnsUnparked (Vex.start locks) events →
      run (parkingStep locking) (Vex.start locks) before = some vex → run (parkingStep locking) vex rest = some next →
      (∀ manager timedWaitingObjectId suspends, .spawn t manager timedWaitingObjectId suspends ∉ rest) →
      vex.threadRegistry t = some thread → next.threadRegistry t = some after →
        permitOf after.state = (permitOf thread.state).performs (rest.filterMap (operationOf t)) := by
  have same : Meets (parkingStep locking) ReturnsUnparked (Vex.start locks) events ↔
      Meets (parkingStep locking) (FollowsAutomaton locking) (Vex.start locks) events :=
    meets_congr_of_invariant (fun _ _ _ sane returns moved => (follows_of_step sane returns moved).1)
      (fun _ _ sane => ⟨fun returns _ moved => (follows_of_step sane returns moved).2,returns_of_follows⟩)
      (sane_start locks) events
  refine ⟨same,?_⟩
  rintro before rest vex next t thread after rfl returns executed remaining notSpawned found foundAfter
  exact permits_of_run (meets_of_append (same.mp returns) executed) notSpawned remaining found foundAfter

end Run

/-- Thread 1 parks for a time that expires. -/
private def expiringEvents : List Event := [.spawn 1 0 0 false,.park 1 100]

/-- It runs again, is unparked and parks. -/
private def laterEvents : List Event := [.continueThread 0 1 false,.returnFromBlock 1,.unpark 1,.park 1 0]

/-- After the return of an expired park the thread is still recorded as parked, so that the unpark
    of the running thread leaves no permit and the next park blocks. -/
theorem expired_park_stays_recorded :
    ∃ vex next last : Vex (LockRegistry.Registry (LockRegistry.LockRegistryInfo Int64)),
      run (parkingStep LockRegistry.operations) (Vex.start fun _ => none) expiringEvents = some vex ∧
        parkingStep LockRegistry.operations vex (.parked 1 false) = some next ∧
        (next.threadRegistry 1).any (fun thread => thread.state.parked) = true ∧
        run (parkingStep LockRegistry.operations) next laterEvents = some last ∧
        (last.threadRegistry 1).any (fun thread => thread.state.isWaiting) = true ∧
        ¬ FollowsAutomaton LockRegistry.operations vex (.parked 1 false) := by
  have checked : (run (parkingStep LockRegistry.operations) (Vex.start fun _ => none) expiringEvents).any (fun vex =>
      (vex.threadRegistry 1).isSome && (parkingStep LockRegistry.operations vex (.parked 1 false)).any fun next =>
        (next.threadRegistry 1).any (fun thread => thread.state.parked) &&
          (run (parkingStep LockRegistry.operations) next laterEvents).any fun last =>
            (last.threadRegistry 1).any fun thread => thread.state.isWaiting) = true := by decide +kernel
  obtain ⟨vex,executed,properties⟩ := exists_of_checked checked
  rw [Bool.and_eq_true] at properties
  obtain ⟨present,properties⟩ := properties
  cases returned : parkingStep LockRegistry.operations vex (.parked 1 false) with
  | none => simp [returned] at properties
  | some next =>
    simp only [returned,Option.any_some,Bool.and_eq_true] at properties
    obtain ⟨recorded,blocks⟩ := properties
    obtain ⟨last,later,waits⟩ := exists_of_checked blocks
    refine ⟨vex,next,last,executed,returned,recorded,later,waits,fun follows => ?_⟩
    obtain ⟨thread,found⟩ := Option.isSome_iff_exists.mp present
    cases foundAfter : next.threadRegistry 1 with
    | none => simp [foundAfter] at recorded
    | some after =>
      have performed := (follows next returned).permits 1 thread after found foundAfter
      have cleared : (permitOf after.state).parked = false :=
        (congrArg Permit.parked performed).trans (by simp [operationOf,Permit.performs,Permit.perform])
      simp only [foundAfter,Option.any_some] at recorded
      rw [permitOf,recorded] at cleared
      cases cleared

end Vexjine.Parking
