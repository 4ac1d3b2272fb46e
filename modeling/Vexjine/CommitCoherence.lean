import Vexjine.ThreadTimers
import Vexjine.VexThreadState

/-!
# The timestamps that running threads commit

Any number of threads under the base manager and a single timeline: their CPU
progress, resumes, waits, yields, and I/O under the normal, the lax and the
serial protocol. What the runnable queue and the scheduler make of a thread comes
from outside, as do all durations. A thread's commit misses time, or adds some,
unless the thread was set running with its two representations in agreement.
-/

namespace Vexjine.CommitCoherence
open Vexjine.VirtualTimeline
open Vexjine.ThreadTimers
open Vexjine.Mutexes (Guarded Locking)
set_option linter.unusedSimpArgs false
set_option linter.unusedSectionVars false

/-- A thread's timers, state and prediction; `startingIo` is the time between the addition of the prediction and
    `setIoThread`, in which the thread does not leave VEX. -/
structure ThreadState where
  timers : Timers := {}
  currentState : Code := .registering
  lastIoPrediction : Int := 0
  timesIoPredictionWasAddedToEstimatedTime : Int := 1
  startingIo : Bool := false

structure State (Thread : Type) where
  timeline : Guarded (Times 0)
  threads : Thread → ThreadState

def initial (Thread : Type) : State Thread := ⟨⟨{},false⟩,fun _ => {}⟩

namespace ThreadState
variable (thread : ThreadState)

/-- `isRunning` of the thread's state. -/
def isRunning : Bool := decide (thread.currentState = .running) || decide (thread.currentState = .inSystemCall)

def setState (currentState : Code) : ThreadState := { thread with currentState }

def addPredictionToEstimatedRealTime (lastIoPrediction : Int) : ThreadState :=
  { thread with
    timers := thread.timers.addElapsedTime lastIoPrediction
    lastIoPrediction
    timesIoPredictionWasAddedToEstimatedTime := 1
    startingIo := true }

/-- A learned operation may time out. -/
def setIoThread : ThreadState :=
  if thread.startingIo then { thread with currentState := .inIo,startingIo := false }
  else { thread with
    currentState := .learningIo
    timers := if thread.timers.timeout = -1 then thread.timers else thread.timers.addElapsedTime thread.timers.timeout }

def invalidateIoPrediction : ThreadState :=
  let times := thread.timesIoPredictionWasAddedToEstimatedTime * 2
  { thread with
    timesIoPredictionWasAddedToEstimatedTime := times
    timers := thread.timers.addElapsedTime (times * thread.lastIoPrediction) }

def getTotalTimePredicted : Int := (2 * thread.timesIoPredictionWasAddedToEstimatedTime - 1) * thread.lastIoPrediction

def updateEstimatedRealTimeAfterIoPrediction (actualIoDuration : Int) : ThreadState :=
  { thread with timers := thread.timers.addElapsedTime (actualIoDuration - thread.getTotalTimePredicted) }

/-- `IoProtocolNormal::onEnd` before its suspension. -/
def onNormalIoEnd (actualIoDuration : Int) : ThreadState :=
  if thread.currentState = .learningIo then
    { thread with timers :=
        if thread.timers.timeout ≠ -1 then thread.timers.rollbackFromTimeOutValue.addElapsedTime actualIoDuration
        else thread.timers.addLocalTime actualIoDuration }
  else thread.updateEstimatedRealTimeAfterIoPrediction actualIoDuration

end ThreadState

/-- Steps of the threads and of the schedulers, in any order. -/
inductive Event (Thread : Type)
  | onThreadSpawn (t : Thread) (estimatedRealTime : Int)
  | resumeThread (t : Thread)
  /-- After a block, or where a suspension is not due. -/
  | setRunningThread (t : Thread)
  | setSuspended (t : Thread) (pushes : Bool)
  /-- On the entry into VEX. -/
  | updateThreadLocalTimeSinceLastResumeTo (t : Thread) (timeAdded : Int)
  | locklessUpdateTimeBy (t : Thread) (timeAdded : Int)
  /-- After the yield's own commit. -/
  | onThreadYield (t : Thread) (highestTimeAfterMe : Int) (suspends : Bool)
  | setWaiting (t : Thread)
  | setTimedWaiting (t : Thread) (virtualTimeSpeedup globalScalingFactor : ℚ) (timeout : Int)
  | onWrappedWaitingEnd (t : Thread)
  | updateTimedOutWaitingThreadTimestamp (t : Thread)
  | commitTimedWaitingProgress (t : Thread)
  | interrupt (t : Thread) (interruptTime : Int) (suspends : Bool)
  | setNativeWaiting (t : Thread)
  | suspendThreadTimesOut (t : Thread)
  | addPredictionToEstimatedRealTime (t : Thread) (lastIoPrediction : Int)
  | setIoThread (t : Thread)
  | invalidateIoPrediction (t : Thread)
  | onNormalIoEnd (t : Thread) (actualIoDuration : Int)
  | onLaxIoEnd (t : Thread) (actualIoDuration : Int)
  | commitIoDuration (t : Thread)
  | setSystemCallThread (t : Thread)
  | onSerialIoEnd (t : Thread) (actualIoDuration : Int)
  deriving DecidableEq

variable {Thread : Type} [DecidableEq Thread]

namespace State
variable (state : State Thread)

def globalTime : Int := state.timeline.data.globalVirtualTime

def setThread (t : Thread) (thread : ThreadState) : State Thread :=
  { state with threads := Function.update state.threads t thread }

def setTimers (t : Thread) (timers : Timers) : State Thread :=
  state.setThread t { state.threads t with timers }

/-- A method of the controller that changes the timers. -/
def update (t : Thread) (method : Timers → Locking (Times 0) Timers) : Option (State Thread) :=
  (method (state.threads t).timers state.timeline).map fun result =>
    { state.setTimers t result.1 with timeline := result.2 }

/-- A method of the controller that changes the timeline. -/
def commit (t : Thread) (method : Timers → Locking (Times 0) Unit) : Option (State Thread) :=
  (method (state.threads t).timers state.timeline).map fun result => { state with timeline := result.2 }

def locklessUpdateTimeBy (t : Thread) (timeAdded : Int) : Option (State Thread) :=
  (state.setTimers t ((state.threads t).timers.addLocalTime timeAdded)).commit t
    (if (state.threads t).currentState = .nativeWaiting then commitNativeWaitingProgress else commitCpuTimeProgress)

/-- The thread becomes the running one of its manager. -/
def setRunningThread (t : Thread) : Option (State Thread) :=
  (state.setThread t ((state.threads t).setState .running)).update t updateResumingSuspendedThreadTimestamp

def setSuspended (t : Thread) (pushes : Bool) : State Thread :=
  state.setThread t { (state.threads t).setState .suspended with
    timers := if pushes then (state.threads t).timers.setTimeout (-1) else (state.threads t).timers }

/-- The thread leaps past every other runnable one, and suspends if there is one. -/
def onThreadYield (t : Thread) (highestTimeAfterMe : Int) (suspends : Bool) : State Thread :=
  let leapt := state.setTimers t ((state.threads t).timers.leapForwardTo (highestTimeAfterMe + 1))
  if suspends then leapt.setSuspended t true else leapt

def interrupt (t : Thread) (interruptTime : Int) (suspends : Bool) : Option (State Thread) :=
  (state.update t fun timers => updateInterruptedWaitingThreadTimestamp timers interruptTime).map fun updated =>
    if suspends then
      updated.setThread t { (updated.threads t).setState .suspended with
        timers := if (updated.threads t).timers.timeout < 0 then (updated.threads t).timers.setTimeout 0
          else (updated.threads t).timers }
    else updated

end State

/-- One step; `none` where the thread is not at it. -/
def step (state : State Thread) : Event Thread → Option (State Thread)
  | .onThreadSpawn t estimatedRealTime =>
    if (state.threads t).currentState = .registering then
      some (state.setTimers t ((state.threads t).timers.setEstimatedRealTime estimatedRealTime))
    else none
  | .resumeThread t =>
    if (state.threads t).currentState = .suspended then state.update t updateResumingSuspendedThreadResumedLastTimestamp
    else none
  | .setRunningThread t => state.setRunningThread t
  | .setSuspended t pushes => some (state.setSuspended t pushes)
  | .updateThreadLocalTimeSinceLastResumeTo t timeAdded =>
    some (state.setTimers t ((state.threads t).timers.addLocalTime timeAdded))
  | .locklessUpdateTimeBy t timeAdded =>
    if (state.threads t).startingIo = false then state.locklessUpdateTimeBy t timeAdded else none
  | .onThreadYield t highestTimeAfterMe suspends =>
    if (state.threads t).currentState = .running ∧ (state.threads t).timers.estimatedRealTime ≤ highestTimeAfterMe then
      some (state.onThreadYield t highestTimeAfterMe suspends)
    else none
  | .setWaiting t => some (state.setThread t ((state.threads t).setState .waiting))
  | .setTimedWaiting t virtualTimeSpeedup globalScalingFactor timeout =>
    some (state.setThread t { (state.threads t).setState .waiting with
      timers := (state.threads t).timers.updateTimesBeforeWaitingWithTimeout virtualTimeSpeedup globalScalingFactor
        timeout })
  | .onWrappedWaitingEnd t =>
    if (state.threads t).isRunning = false then state.update t updateBlockedThreadTimestamp else none
  | .updateTimedOutWaitingThreadTimestamp t =>
    if (state.threads t).isRunning = false then state.update t updateTimedOutWaitingThreadTimestamp else none
  | .commitTimedWaitingProgress t => state.commit t commitTimedWaitingProgress
  | .interrupt t interruptTime suspends =>
    if (state.threads t).currentState = .waiting then state.interrupt t interruptTime suspends else none
  | .setNativeWaiting t =>
    if (state.threads t).currentState = .running then
      some (state.setThread t { (state.threads t).setState .nativeWaiting with
        timers := ((state.threads t).timers.setResumedLastAt (state.threads t).timers.estimatedRealTime).getAndResetLocalTime })
    else none
  | .suspendThreadTimesOut t =>
    if (state.threads t).isRunning then some (state.setThread t ((state.threads t).setState .nativeWaiting)) else none
  | .addPredictionToEstimatedRealTime t lastIoPrediction =>
    if (state.threads t).currentState = .running then
      some (state.setThread t ((state.threads t).addPredictionToEstimatedRealTime lastIoPrediction))
    else none
  | .setIoThread t =>
    if (state.threads t).currentState = .running then some (state.setThread t (state.threads t).setIoThread) else none
  | .invalidateIoPrediction t =>
    if (state.threads t).currentState = .inIo then some (state.setThread t (state.threads t).invalidateIoPrediction)
    else none
  | .onNormalIoEnd t actualIoDuration =>
    if (state.threads t).currentState = .learningIo ∨ (state.threads t).currentState = .inIo then
      some (state.setThread t ((state.threads t).onNormalIoEnd actualIoDuration))
    else none
  | .onLaxIoEnd t actualIoDuration =>
    if (state.threads t).currentState = .learningIo then
      some (state.setTimers t ((state.threads t).timers.addElapsedTime actualIoDuration))
    else none
  | .commitIoDuration t => state.commit t commitIoTimeProgress
  | .setSystemCallThread t =>
    if (state.threads t).currentState = .running ∧ (state.threads t).startingIo = false then
      some (state.setThread t ((state.threads t).setState .inSystemCall))
    else none
  | .onSerialIoEnd t actualIoDuration =>
    if (state.threads t).currentState = .inSystemCall then
      some (state.setThread t { (state.threads t).setState .running with
        timers := (state.threads t).timers.addLocalTime actualIoDuration })
    else none

/-! ## The law -/

/-- The two representations of the thread's time agree. -/
def Coherent (timers : Timers) : Prop := timers.getCurrentVirtualTimestampOfRunningThread = timers.estimatedRealTime

instance (timers : Timers) : Decidable (Coherent timers) := inferInstanceAs (Decidable (_ = _))

/-- The thread that commits CPU time in the step, with its timers at that moment. -/
def State.committing (state : State Thread) : Event Thread → Option (Thread × Timers)
  | .locklessUpdateTimeBy t timeAdded =>
    if (state.threads t).currentState = .running then some (t,(state.threads t).timers.addLocalTime timeAdded) else none
  | _ => none

/-- A running thread that commits CPU time commits its estimated real time. -/
def CommitsCoherently (state : State Thread) (event : Event Thread) : Prop := (step state event).isSome = true →
  ∀ commit ∈ state.committing event,
    commit.2.getCurrentVirtualTimestampOfRunningThread = commit.2.estimatedRealTime

instance (state : State Thread) (event : Event Thread) : Decidable (CommitsCoherently state event) :=
  have : Decidable (∀ commit ∈ state.committing event,
    commit.2.getCurrentVirtualTimestampOfRunningThread = commit.2.estimatedRealTime) := Option.decidableForallMem _
  inferInstanceAs (Decidable (_ → _))

/-! ## When it holds -/

/-- A thread is set running when the later one of its estimated real time and the global time is what it would
    commit, or only to start its I/O; and a thread that yields suspends. -/
structure Restores (state : State Thread) (event : Event Thread) : Prop where
  runs : ∀ t, event = .setRunningThread t → (state.threads t).startingIo = false →
    max (state.threads t).timers.estimatedRealTime state.globalTime =
      (state.threads t).timers.getCurrentVirtualTimestampOfRunningThread
  yields : ∀ t highestTimeAfterMe suspends, event = .onThreadYield t highestTimeAfterMe suspends → suspends = true

instance (state : State Thread) : (event : Event Thread) → Decidable (Restores state event)
  | .setRunningThread t => decidable_of_iff ((state.threads t).startingIo = false →
      max (state.threads t).timers.estimatedRealTime state.globalTime =
        (state.threads t).timers.getCurrentVirtualTimestampOfRunningThread)
      ⟨fun own => ⟨fun _ same => by cases same; exact own,nofun⟩,fun restores => restores.runs t rfl⟩
  | .onThreadYield t highestTimeAfterMe suspends => decidable_of_iff (suspends = true)
      ⟨fun own => ⟨nofun,fun _ _ _ same => by cases same; exact own⟩,fun restores => restores.yields t _ suspends rfl⟩
  | .onThreadSpawn _ _ | .resumeThread _ | .setSuspended _ _ | .updateThreadLocalTimeSinceLastResumeTo _ _
  | .locklessUpdateTimeBy _ _ | .setWaiting _ | .setTimedWaiting _ _ _ _ | .onWrappedWaitingEnd _
  | .updateTimedOutWaitingThreadTimestamp _ | .commitTimedWaitingProgress _ | .interrupt _ _ _ | .setNativeWaiting _
  | .suspendThreadTimesOut _ | .addPredictionToEstimatedRealTime _ _ | .setIoThread _ | .invalidateIoPrediction _
  | .onNormalIoEnd _ _ | .onLaxIoEnd _ _ | .commitIoDuration _ | .setSystemCallThread _ | .onSerialIoEnd _ _ =>
    .isTrue ⟨nofun,nofun⟩

/-- Threads that run agree with themselves, unless they are about to start an I/O. -/
def AllCoherent (state : State Thread) : Prop :=
  ∀ t, (state.threads t).isRunning = true → (state.threads t).startingIo = false → Coherent (state.threads t).timers

variable {state next last : State Thread} {event : Event Thread}

/-! ## Steps -/

private theorem coherent_addLocalTime {timers : Timers} (timeAdded : Int) :
    Coherent (timers.addLocalTime timeAdded) ↔ Coherent timers := by
  simp only [Coherent,Timers.getCurrentVirtualTimestampOfRunningThread,Timers.addLocalTime,Timers.addElapsedTime]
  omega

private theorem leapForwardTo_fields (timers : Timers) (time : Int) :
    (timers.leapForwardTo time).estimatedRealTime = max timers.estimatedRealTime time ∧
      (timers.leapForwardTo time).getCurrentVirtualTimestampOfRunningThread =
        timers.getCurrentVirtualTimestampOfRunningThread := by
  unfold Timers.leapForwardTo
  split
  · next later => exact ⟨(max_eq_right later.le).symm,rfl⟩
  · next earlier => exact ⟨(max_eq_left (not_lt.mp earlier)).symm,rfl⟩

private theorem allCoherent_setThread {t : Thread} {thread : ThreadState} (all : AllCoherent state)
    (own : thread.isRunning = true → thread.startingIo = false → Coherent thread.timers) :
    AllCoherent (state.setThread t thread) := by
  intro other runs leaves
  by_cases same : other = t
  · subst same
    simp only [State.setThread,Function.update_self] at *
    exact own runs leaves
  · simp only [State.setThread,Function.update_of_ne same] at *
    exact all other runs leaves

/-- A thread that does not run afterwards. -/
private theorem allCoherent_stops {t : Thread} {thread : ThreadState} (all : AllCoherent state)
    (stops : thread.isRunning = false) : AllCoherent (state.setThread t thread) :=
  allCoherent_setThread all fun runs => by simp [stops] at runs

/-- A method of the controller that reads the timeline. -/
private theorem update_threads {t : Thread} {method : Timers → Locking (Times 0) Timers} {change : Timers → Times 0 → Timers}
    (reads : ∀ timers, method timers = Mutexes.read (change timers)) (updated : state.update t method = some next) :
    next = state.setTimers t (change (state.threads t).timers state.timeline.data) := by
  unfold State.update at updated
  rw [reads] at updated
  cases updated
  rfl

private theorem commit_threads {t : Thread} {method : Timers → Locking (Times 0) Unit}
    (committed : state.commit t method = some next) : next.threads = state.threads := by
  obtain ⟨result,-,rfl⟩ := Option.map_eq_some_iff.mp committed
  rfl

private theorem allCoherent_congr (all : AllCoherent state) (same : next.threads = state.threads) : AllCoherent next := by
  unfold AllCoherent
  rw [same]
  exact all

private theorem allCoherent_addLocalTime {t : Thread} (all : AllCoherent state) (timeAdded : Int) :
    AllCoherent (state.setTimers t ((state.threads t).timers.addLocalTime timeAdded)) :=
  allCoherent_setThread all fun runs leaves => (coherent_addLocalTime timeAdded).mpr (all t runs leaves)

private theorem setRunning_coherent {t : Thread} (all : AllCoherent state)
    (restores : (state.threads t).startingIo = false → max (state.threads t).timers.estimatedRealTime state.globalTime =
      (state.threads t).timers.getCurrentVirtualTimestampOfRunningThread)
    (runs : state.setRunningThread t = some next) : AllCoherent next := by
  have updated := update_threads (fun _ => rfl) runs
  simp only [State.setTimers,State.setThread,ThreadState.setState,Function.update_self,Function.update_idem] at updated
  obtain rfl := updated
  refine @allCoherent_setThread _ _ state t _ all fun _ leaves => ?_
  obtain ⟨ert,stamp⟩ := leapForwardTo_fields (state.threads t).timers state.globalTime
  exact stamp.trans ((restores leaves).symm.trans ert.symm)

private theorem interrupt_coherent {t : Thread} {interruptTime : Int} {suspends : Bool} (all : AllCoherent state)
    (waits : (state.threads t).currentState = .waiting) (interrupted : state.interrupt t interruptTime suspends = some next) :
    AllCoherent next := by
  obtain ⟨updated,changed,rfl⟩ := Option.map_eq_some_iff.mp interrupted
  obtain rfl := update_threads (fun _ => rfl) changed
  have kept : AllCoherent (state.setTimers t (((state.threads t).timers.setEstimatedRealTime
      (if interruptTime = 0 ∧ (state.threads t).timers.dontUpdateToGlobalTime = false then state.globalTime
        else interruptTime)))) := allCoherent_stops all (by simp [ThreadState.isRunning,waits])
  split
  · exact allCoherent_stops kept (by simp [ThreadState.isRunning,ThreadState.setState])
  · exact kept

private theorem step_coherent (all : AllCoherent state) (restores : Restores state event)
    (stepped : step state event = some next) : AllCoherent next := by
  cases event with
  | onThreadSpawn t estimatedRealTime =>
    simp only [step,Option.ite_none_right_eq_some,Option.some.injEq] at stepped
    obtain ⟨registering,rfl⟩ := stepped
    exact allCoherent_stops all (by simp [ThreadState.isRunning,registering])
  | resumeThread t =>
    simp only [step,Option.ite_none_right_eq_some] at stepped
    obtain ⟨suspended,updated⟩ := stepped
    obtain rfl := update_threads (fun _ => rfl) updated
    exact allCoherent_stops all (by simp [ThreadState.isRunning,suspended])
  | setRunningThread t => exact setRunning_coherent all (restores.runs t rfl) stepped
  | setSuspended t pushes =>
    cases stepped
    exact allCoherent_stops all (by simp [ThreadState.isRunning,ThreadState.setState])
  | updateThreadLocalTimeSinceLastResumeTo t timeAdded =>
    cases stepped
    exact allCoherent_addLocalTime all timeAdded
  | locklessUpdateTimeBy t timeAdded =>
    simp only [step,Option.ite_none_right_eq_some] at stepped
    exact allCoherent_congr (allCoherent_addLocalTime all timeAdded) (commit_threads stepped.2)
  | onThreadYield t highestTimeAfterMe suspends =>
    simp only [step,Option.ite_none_right_eq_some,Option.some.injEq] at stepped
    obtain ⟨-,rfl⟩ := stepped
    obtain rfl := restores.yields t highestTimeAfterMe suspends rfl
    simp only [State.onThreadYield,if_true,State.setSuspended,State.setTimers,State.setThread,Function.update_self,
      Function.update_idem]
    exact allCoherent_stops all (by simp [ThreadState.isRunning,ThreadState.setState])
  | setWaiting t | setTimedWaiting t _ _ _ =>
    cases stepped
    exact allCoherent_stops all (by simp [ThreadState.isRunning,ThreadState.setState])
  | onWrappedWaitingEnd t | updateTimedOutWaitingThreadTimestamp t =>
    simp only [step,Option.ite_none_right_eq_some] at stepped
    obtain ⟨stopped,updated⟩ := stepped
    obtain rfl := update_threads (fun _ => rfl) updated
    exact allCoherent_stops all stopped
  | commitTimedWaitingProgress t | commitIoDuration t => exact allCoherent_congr all (commit_threads stepped)
  | interrupt t interruptTime suspends =>
    simp only [step,Option.ite_none_right_eq_some] at stepped
    exact interrupt_coherent all stepped.1 stepped.2
  | setNativeWaiting t =>
    simp only [step,Option.ite_none_right_eq_some,Option.some.injEq] at stepped
    obtain ⟨-,rfl⟩ := stepped
    exact allCoherent_stops all (by simp [ThreadState.isRunning,ThreadState.setState])
  | suspendThreadTimesOut t =>
    simp only [step,Option.ite_none_right_eq_some,Option.some.injEq] at stepped
    obtain ⟨-,rfl⟩ := stepped
    exact allCoherent_stops all (by simp [ThreadState.isRunning,ThreadState.setState])
  | addPredictionToEstimatedRealTime t lastIoPrediction =>
    simp only [step,Option.ite_none_right_eq_some,Option.some.injEq] at stepped
    obtain ⟨-,rfl⟩ := stepped
    exact allCoherent_setThread all fun _ leaves => by cases leaves
  | setIoThread t =>
    simp only [step,Option.ite_none_right_eq_some,Option.some.injEq] at stepped
    obtain ⟨-,rfl⟩ := stepped
    refine allCoherent_stops all ?_
    unfold ThreadState.setIoThread
    split <;> simp [ThreadState.isRunning]
  | invalidateIoPrediction t =>
    simp only [step,Option.ite_none_right_eq_some,Option.some.injEq] at stepped
    obtain ⟨inIo,rfl⟩ := stepped
    exact allCoherent_stops all (by simp [ThreadState.isRunning,ThreadState.invalidateIoPrediction,inIo])
  | onNormalIoEnd t actualIoDuration =>
    simp only [step,Option.ite_none_right_eq_some,Option.some.injEq] at stepped
    obtain ⟨inIo,rfl⟩ := stepped
    refine allCoherent_stops all ?_
    unfold ThreadState.onNormalIoEnd ThreadState.updateEstimatedRealTimeAfterIoPrediction
    rcases inIo with learning | predicted
    · simp [ThreadState.isRunning,learning]
    · simp [ThreadState.isRunning,predicted]
  | onLaxIoEnd t actualIoDuration =>
    simp only [step,Option.ite_none_right_eq_some,Option.some.injEq] at stepped
    obtain ⟨learning,rfl⟩ := stepped
    exact allCoherent_stops all (by simp [ThreadState.isRunning,learning])
  | setSystemCallThread t =>
    simp only [step,Option.ite_none_right_eq_some,Option.some.injEq] at stepped
    obtain ⟨⟨running,leaves⟩,rfl⟩ := stepped
    exact allCoherent_setThread all fun _ _ => all t (by simp [ThreadState.isRunning,running]) leaves
  | onSerialIoEnd t actualIoDuration =>
    simp only [step,Option.ite_none_right_eq_some,Option.some.injEq] at stepped
    obtain ⟨inCall,rfl⟩ := stepped
    exact allCoherent_setThread all fun _ leaves =>
      (coherent_addLocalTime actualIoDuration).mpr (all t (by simp [ThreadState.isRunning,inCall]) leaves)

/-! ## The runs -/

/-- The main thread commits its first 10. -/
private def mainRuns : List (Event Nat) := [.onThreadSpawn 0 0,.setRunningThread 0,.locklessUpdateTimeBy 0 10]

/-- A learned I/O of the main thread, a yield to another thread, and the return of the main thread. -/
private def yieldsAfterIo : List (Event Nat) :=
  mainRuns ++ [.setIoThread 0,.onNormalIoEnd 0 5,.setRunningThread 0,.commitIoDuration 0,.locklessUpdateTimeBy 0 7,
    .onThreadSpawn 1 10,.setSuspended 1 true,.onThreadYield 0 22 true,.resumeThread 1,.setRunningThread 1,
    .locklessUpdateTimeBy 1 5,.setSuspended 1 true,.resumeThread 0,.setRunningThread 0,.locklessUpdateTimeBy 0 1]

end Vexjine.CommitCoherence
