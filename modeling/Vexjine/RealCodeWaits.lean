import Vexjine.ThreadQueue

/-!
# Waiting for the real code of a model

A thread whose model is finished stays in the queue at the time of its last resume until
its real code is through, and its run time is kept where that time was. The schedulers
poll it there and put it behind other threads; its own thread takes the run time back.
-/

namespace Vexjine.RealCodeWaits
open Vexjine.ThreadQueue Vexjine.Runs Heaps
set_option linter.unusedSectionVars false

variable {Thread : Type*} [DecidableEq Thread]

inductive VexThreadStates
  | inModel
  | afterModelSimWaitingForRealCode
  | other
  deriving DecidableEq

/-- What a thread keeps of its model. -/
structure ThreadState where
  currentState : VexThreadStates := .other
  /-- The thread runs the real code of a method that has a model. -/
  inRealCode : Bool := false
  /-- A scheduler simulates the model. -/
  simulatingModel : Bool := false
  inVex : Bool := false
  lastCPUTime : Int := 0
  resumedLastAt : Int := 0
  suspendingThreadIntention : Option Intention := none
  deriving DecidableEq

namespace ThreadState
variable (state : ThreadState)

def isSimulatingModel : Bool := state.currentState = .inModel

def isWaitingRealCodeToCompleteAfterModelSimulation : Bool := state.currentState = .afterModelSimWaitingForRealCode

/-- The handler's answer to a poll: without progress since the last one the thread counts as blocked. -/
def onSignalledFromScheduler (startingHandlerTime : Int) : ThreadState :=
  if state.inVex = false ∧ startingHandlerTime - state.lastCPUTime < 200000 then
    { state with suspendingThreadIntention := some .toBeDisregarded }
  else
    { state with suspendingThreadIntention := some .toKeepOnRunning,lastCPUTime := startingHandlerTime }

end ThreadState

/-- The queue with the run times, and the threads. -/
structure System (Thread : Type*) where
  queue : Queue Thread
  threads : Thread → ThreadState

inductive Event (Thread : Type*)
  /-- `byScheduler`: the thread goes on with its real code while a scheduler simulates the model. -/
  | simulate (thread : Thread) (byScheduler : Bool)
  | waitForRealCodeToComplete (thread : Thread)
  | notifyModelSimulationEnd (thread : Thread)
  /-- The signal of a poll reaches the thread. -/
  | onSignalledFromScheduler (thread : Thread) (startingHandlerTime : Int)
  /-- The scheduler reacts to the answer. -/
  | pollThreadToCheckIfActuallyRunning (thread : Thread)
  /-- The real code ends. -/
  | onSynchronizeOnModelExit (thread : Thread)
  | endModelSimulation (thread : Thread)
  /-- What else threads and schedulers do to the queue and to the run times of threads. -/
  | access (access : Access Thread)
  /-- A time that a thread is resumed or blocked at. -/
  | setResumedLastAt (thread : Thread) (time : Int)
  /-- An event of a thread outside modelled code. -/
  | setNewState (thread : Thread) (inVex : Bool) (lastCPUTime : Int)

namespace System
variable (algorithms : HeapAlgorithms Thread Int) (system : System Thread)

def setThread (thread : Thread) (state : ThreadState) : System Thread :=
  { system with threads := Function.update system.threads thread state }

/-- `std::swap(estimatedRealTime, resumedLastAt)`, which sets the blocking time and unsets it. -/
def swapTimes (thread : Thread) : System Thread :=
  { system with
    queue := system.queue.change thread (.setEstimatedRealTime (system.threads thread).resumedLastAt)
    threads := Function.update system.threads thread
      { system.threads thread with resumedLastAt := system.queue.estimatedRealTime thread } }

def simulate (thread : Thread) (byScheduler : Bool) : Option (System Thread) :=
  if (system.threads thread).inRealCode then none
  else some (system.setThread thread
    { system.threads thread with currentState := .inModel,inRealCode := true,simulatingModel := byScheduler,inVex := false })

def waitForRealCodeToComplete (thread : Thread) : Option (System Thread) :=
  if (system.threads thread).isSimulatingModel then
    some ((system.setThread thread
      { system.threads thread with currentState := .afterModelSimWaitingForRealCode }).swapTimes thread)
  else none

/-- The scheduler has pushed the thread before. -/
def notifyModelSimulationEnd (thread : Thread) : Option (System Thread) :=
  if (system.threads thread).isWaitingRealCodeToCompleteAfterModelSimulation ∧ (system.threads thread).simulatingModel then
    some (system.setThread thread { system.threads thread with simulatingModel := false })
  else none

def signal (thread : Thread) (startingHandlerTime : Int) : Option (System Thread) :=
  if (system.threads thread).isWaitingRealCodeToCompleteAfterModelSimulation then
    some (system.setThread thread ((system.threads thread).onSignalledFromScheduler startingHandlerTime))
  else none

/-- The threads that a blocked one is not put behind. -/
def skipped (other : Thread) : Bool :=
  (system.threads other).isSimulatingModel || (system.threads other).isWaitingRealCodeToCompleteAfterModelSimulation

/-- An ended thread gives no answer and leaves the queue. -/
def poll (thread : Thread) : System Thread :=
  let reacted := system.setThread thread { system.threads thread with suspendingThreadIntention := none }
  match (system.threads thread).suspendingThreadIntention with
  | none => { reacted with queue := system.queue.erase algorithms thread }
  | some .toBeDisregarded =>
    { reacted with queue := system.queue.setThreadToNextBiggestErt algorithms thread system.skipped }
  | some _ => reacted

/-- From here on polls find the thread within the simulator. -/
def modelExit (thread : Thread) : Option (System Thread) :=
  if (system.threads thread).inRealCode then
    some (system.setThread thread { system.threads thread with inVex := true })
  else none

/-- After the thread was blocked until its model is finished. -/
def endModelSimulation (thread : Thread) : Option (System Thread) :=
  let state := system.threads thread
  if state.inRealCode ∧ state.inVex ∧ state.isSimulatingModel = false ∧ state.simulatingModel = false then
    some ((system.setThread thread { state with inRealCode := false }).swapTimes thread)
  else none

/-- Only threads that no model's real code is waited for are resumed and blocked. -/
def setResumedLastAt (thread : Thread) (time : Int) : Option (System Thread) :=
  if (system.threads thread).isWaitingRealCodeToCompleteAfterModelSimulation then none
  else some (system.setThread thread { system.threads thread with resumedLastAt := time })

/-- The events of a thread in modelled code are ignored. -/
def setNewState (thread : Thread) (inVex : Bool) (lastCPUTime : Int) : Option (System Thread) :=
  if (system.threads thread).inRealCode then none
  else some (system.setThread thread { system.threads thread with currentState := .other,inVex,lastCPUTime })

def step (system : System Thread) : Event Thread → Option (System Thread)
  | .simulate thread byScheduler => system.simulate thread byScheduler
  | .waitForRealCodeToComplete thread => system.waitForRealCodeToComplete thread
  | .notifyModelSimulationEnd thread => system.notifyModelSimulationEnd thread
  | .onSignalledFromScheduler thread startingHandlerTime => system.signal thread startingHandlerTime
  | .pollThreadToCheckIfActuallyRunning thread => some (system.poll algorithms thread)
  | .onSynchronizeOnModelExit thread => system.modelExit thread
  | .endModelSimulation thread => system.endModelSimulation thread
  | .access access => some { system with queue := system.queue.perform algorithms access }
  | .setResumedLastAt thread time => system.setResumedLastAt thread time
  | .setNewState thread inVex lastCPUTime => system.setNewState thread inVex lastCPUTime

end System

/-- No thread has simulated a model yet. -/
def start (queue : Queue Thread) : System Thread := { queue,threads := fun _ => {} }

/-! ## The run time is kept -/

section Kept
variable {algorithms : HeapAlgorithms Thread Int} {system next : System Thread} {thread : Thread}

/-- The thread's real code is waited for, and its run time is kept. -/
private structure Waits (system : System Thread) (thread : Thread) (runTime : Int) : Prop where
  inRealCode : (system.threads thread).inRealCode = true
  waits : (system.threads thread).currentState = .afterModelSimWaitingForRealCode
  kept : (system.threads thread).resumedLastAt = runTime

private theorem waits_of_threads {runTime : Int} (waits : Waits system thread runTime)
    (same : next.threads thread = system.threads thread) : Waits next thread runTime :=
  ⟨same ▸ waits.inRealCode,same ▸ waits.waits,same ▸ waits.kept⟩

/-- What is done to a thread concerns the waiting one only if it is the same. -/
private theorem waits_setThread {runTime : Int} (waits : Waits system thread runTime) (other : Thread) (state : ThreadState)
    (own : other = thread → state.inRealCode = true ∧ state.currentState = .afterModelSimWaitingForRealCode ∧
      state.resumedLastAt = runTime) : Waits (system.setThread other state) thread runTime := by
  by_cases same : other = thread
  · obtain ⟨inRealCode,stays,kept⟩ := own same
    have is : (system.setThread other state).threads thread = state := by
      simp [System.setThread,same]
    exact ⟨by rwa [is],by rwa [is],by rwa [is]⟩
  · exact waits_of_threads waits (Function.update_of_ne (Ne.symm same) _ _)

private theorem swapTimes_other {other : Thread} (different : other ≠ thread) (state : ThreadState) :
    ((system.setThread other state).swapTimes other).threads thread = system.threads thread := by
  simp [System.setThread,System.swapTimes,Function.update_of_ne different.symm]

/-- Every step but the thread's own end of the simulation keeps its run time. -/
private theorem waits_step {runTime : Int} {event : Event Thread} (waits : Waits system thread runTime)
    (stays : event ≠ .endModelSimulation thread) (stepped : system.step algorithms event = some next) :
    Waits next thread runTime := by
  cases event with
  | simulate other byScheduler =>
    simp only [System.step,System.simulate,Option.ite_none_left_eq_some,Option.some.injEq] at stepped
    obtain ⟨outside,rfl⟩ := stepped
    refine waits_setThread waits other _ fun same => absurd waits.inRealCode ?_
    exact same ▸ outside
  | waitForRealCodeToComplete other =>
    simp only [System.step,System.waitForRealCodeToComplete,Option.ite_none_right_eq_some,Option.some.injEq] at stepped
    obtain ⟨simulates,rfl⟩ := stepped
    have different : other ≠ thread := by
      rintro rfl
      simp [ThreadState.isSimulatingModel,waits.waits] at simulates
    exact waits_of_threads waits (swapTimes_other different _)
  | notifyModelSimulationEnd other =>
    simp only [System.step,System.notifyModelSimulationEnd,Option.ite_none_right_eq_some,Option.some.injEq] at stepped
    obtain ⟨-,rfl⟩ := stepped
    refine waits_setThread waits other _ ?_
    rintro rfl
    exact ⟨waits.inRealCode,waits.waits,waits.kept⟩
  | onSignalledFromScheduler other startingHandlerTime =>
    simp only [System.step,System.signal,Option.ite_none_right_eq_some,Option.some.injEq] at stepped
    obtain ⟨-,rfl⟩ := stepped
    refine waits_setThread waits other _ ?_
    rintro rfl
    unfold ThreadState.onSignalledFromScheduler
    split <;> exact ⟨waits.inRealCode,waits.waits,waits.kept⟩
  | pollThreadToCheckIfActuallyRunning other =>
    cases stepped
    have reacted := waits_setThread waits other { system.threads other with suspendingThreadIntention := none } (by
      rintro rfl
      exact ⟨waits.inRealCode,waits.waits,waits.kept⟩)
    refine waits_of_threads reacted ?_
    unfold System.poll
    dsimp only
    split <;> rfl
  | onSynchronizeOnModelExit other =>
    simp only [System.step,System.modelExit,Option.ite_none_right_eq_some,Option.some.injEq] at stepped
    obtain ⟨-,rfl⟩ := stepped
    refine waits_setThread waits other _ ?_
    rintro rfl
    exact ⟨waits.inRealCode,waits.waits,waits.kept⟩
  | endModelSimulation other =>
    simp only [System.step,System.endModelSimulation,Option.ite_none_right_eq_some,Option.some.injEq] at stepped
    obtain ⟨-,rfl⟩ := stepped
    have different : other ≠ thread := fun same => stays (same ▸ rfl)
    exact waits_of_threads waits (swapTimes_other different _)
  | access access =>
    cases stepped
    exact waits_of_threads waits rfl
  | setResumedLastAt other time =>
    simp only [System.step,System.setResumedLastAt,Option.ite_none_left_eq_some,Option.some.injEq] at stepped
    obtain ⟨resumes,rfl⟩ := stepped
    refine waits_setThread waits other _ fun same => absurd waits.waits ?_
    subst same
    simpa [ThreadState.isWaitingRealCodeToCompleteAfterModelSimulation] using resumes
  | setNewState other inVex lastCPUTime =>
    simp only [System.step,System.setNewState,Option.ite_none_left_eq_some,Option.some.injEq] at stepped
    obtain ⟨outside,rfl⟩ := stepped
    refine waits_setThread waits other _ fun same => absurd waits.inRealCode ?_
    exact same ▸ outside

/-- By induction on the run. -/
private theorem waits_run {runTime : Int} {events : List (Event Thread)} {last : System Thread}
    (waits : Waits system thread runTime) (stays : .endModelSimulation thread ∉ events)
    (executed : run (System.step algorithms) system events = some last) : Waits last thread runTime := by
  induction events generalizing system with
  | nil =>
    cases executed
    exact waits
  | cons event rest ih =>
    obtain ⟨next,stepped,remaining⟩ := (run_cons system event rest last).mp executed
    rw [List.mem_cons,not_or] at stays
    exact ih (waits_step waits (Ne.symm stays.1) stepped) stays.2 remaining

/-- Models are simulated only for threads in real code. -/
private def Modelled (system : System Thread) : Prop :=
  ∀ thread, (system.threads thread).currentState = .inModel → (system.threads thread).inRealCode = true

private theorem modelled_setThread (modelled : Modelled system) (thread : Thread) (state : ThreadState)
    (own : state.currentState = .inModel → state.inRealCode = true) : Modelled (system.setThread thread state) := by
  intro other
  by_cases same : other = thread
  · simpa [System.setThread,same] using own
  · simpa [System.setThread,Function.update_of_ne same] using modelled other

private theorem modelled_swapTimes (modelled : Modelled system) (thread : Thread) : Modelled (system.swapTimes thread) := by
  refine modelled_setThread modelled thread _ ?_
  exact modelled thread

private theorem modelled_step (event : Event Thread) (modelled : Modelled system)
    (stepped : system.step algorithms event = some next) : Modelled next := by
  cases event with
  | simulate thread byScheduler =>
    simp only [System.step,System.simulate,Option.ite_none_left_eq_some,Option.some.injEq] at stepped
    obtain ⟨-,rfl⟩ := stepped
    exact modelled_setThread modelled thread _ fun _ => rfl
  | waitForRealCodeToComplete thread =>
    simp only [System.step,System.waitForRealCodeToComplete,Option.ite_none_right_eq_some,Option.some.injEq] at stepped
    obtain ⟨-,rfl⟩ := stepped
    exact modelled_swapTimes (modelled_setThread modelled thread _ (by simp)) thread
  | notifyModelSimulationEnd thread =>
    simp only [System.step,System.notifyModelSimulationEnd,Option.ite_none_right_eq_some,Option.some.injEq] at stepped
    obtain ⟨-,rfl⟩ := stepped
    exact modelled_setThread modelled thread _ (modelled thread)
  | onSignalledFromScheduler thread startingHandlerTime =>
    simp only [System.step,System.signal,Option.ite_none_right_eq_some,Option.some.injEq] at stepped
    obtain ⟨-,rfl⟩ := stepped
    refine modelled_setThread modelled thread _ ?_
    unfold ThreadState.onSignalledFromScheduler
    split <;> exact modelled thread
  | pollThreadToCheckIfActuallyRunning thread =>
    cases stepped
    have reacted := modelled_setThread modelled thread { system.threads thread with suspendingThreadIntention := none }
      (modelled thread)
    unfold System.poll
    dsimp only
    split <;> exact reacted
  | onSynchronizeOnModelExit thread =>
    simp only [System.step,System.modelExit,Option.ite_none_right_eq_some,Option.some.injEq] at stepped
    obtain ⟨-,rfl⟩ := stepped
    exact modelled_setThread modelled thread _ (modelled thread)
  | endModelSimulation thread =>
    simp only [System.step,System.endModelSimulation,Option.ite_none_right_eq_some,Option.some.injEq] at stepped
    obtain ⟨⟨-,-,finished,-⟩,rfl⟩ := stepped
    refine modelled_swapTimes (modelled_setThread modelled thread _ fun simulates => ?_) thread
    simp [ThreadState.isSimulatingModel,show (system.threads thread).currentState = .inModel from simulates] at finished
  | access access =>
    cases stepped
    exact modelled
  | setResumedLastAt thread time =>
    simp only [System.step,System.setResumedLastAt,Option.ite_none_left_eq_some,Option.some.injEq] at stepped
    obtain ⟨-,rfl⟩ := stepped
    exact modelled_setThread modelled thread _ (modelled thread)
  | setNewState thread inVex lastCPUTime =>
    simp only [System.step,System.setNewState,Option.ite_none_left_eq_some,Option.some.injEq] at stepped
    obtain ⟨-,rfl⟩ := stepped
    exact modelled_setThread modelled thread _ (by simp)

private theorem modelled_start (queue : Queue Thread) : Modelled (start queue) :=
  fun _ simulates => VexThreadStates.noConfusion simulates

private theorem waits_of_finish (modelled : Modelled system)
    (finished : system.step algorithms (.waitForRealCodeToComplete thread) = some next) :
    Waits next thread (system.queue.estimatedRealTime thread) := by
  simp only [System.step,System.waitForRealCodeToComplete,Option.ite_none_right_eq_some,Option.some.injEq] at finished
  obtain ⟨simulates,rfl⟩ := finished
  have inRealCode := modelled thread (of_decide_eq_true simulates)
  refine ⟨?_,?_,?_⟩ <;> simp [System.setThread,System.swapTimes,inRealCode]

/-- The second swap takes back what the first one put away. -/
private theorem ended_time {runTime : Int} (waits : Waits system thread runTime)
    (ended : system.step algorithms (.endModelSimulation thread) = some next) :
    next.queue.estimatedRealTime thread = runTime := by
  simp only [System.step,System.endModelSimulation,Option.ite_none_right_eq_some,Option.some.injEq] at ended
  obtain ⟨-,rfl⟩ := ended
  simp [System.setThread,System.swapTimes,Queue.change,Change.apply,waits.kept]

end Kept

/-- For all queues and all steps that schedulers and threads take while a thread's real code is waited for, polls
    that are under way included: when it ends the model simulation its run time is that of the finished model. -/
theorem run_time_after_model (algorithms : HeapAlgorithms Thread Int) (queue : Queue Thread) (thread : Thread)
    (before during : List (Event Thread)) (model finished last ended : System Thread)
    (reached : run (System.step algorithms) (start queue) before = some model)
    (finishes : model.step algorithms (.waitForRealCodeToComplete thread) = some finished)
    (waits : run (System.step algorithms) finished during = some last)
    (stays : .endModelSimulation thread ∉ during)
    (ends : last.step algorithms (.endModelSimulation thread) = some ended) :
    ended.queue.estimatedRealTime thread = model.queue.estimatedRealTime thread := by
  have modelled : Modelled model :=
    invariant (fun _ event _ modelled stepped => modelled_step event modelled stepped) (modelled_start queue) reached
  have kept := waits_run (waits_of_finish modelled finishes) stays waits
  exact ended_time kept ends

/-- Two threads, of which the first enters a model at 70 ms with its last resume at 50 ms. -/
private def beforeModel : List (Event Nat) :=
  [.setResumedLastAt 0 50000000,.setNewState 0 false 5000000,.simulate 0 true]

/-- It is polled twice and put behind the other thread before its real code ends. -/
private def pollsOfBlocked : List (Event Nat) :=
  [.access (.push 0),.notifyModelSimulationEnd 0,.onSignalledFromScheduler 0 5100000,.pollThreadToCheckIfActuallyRunning 0,
    .onSignalledFromScheduler 0 5100000,.pollThreadToCheckIfActuallyRunning 0,.onSynchronizeOnModelExit 0]

private def oneRunnable : Queue Nat where
  threads := [1]
  estimatedRealTime thread := if thread = 0 then 70000000 else 90000000

/-- The blocker moves behind 90 ms, the thread goes on at 70 ms. -/
theorem blocker_moves_alone : ∃ model finished last ended : System Nat,
    model.queue.estimatedRealTime 0 = 70000000 ∧ last.queue.estimatedRealTime 0 = 90000002 ∧
    last.step .ascending (.endModelSimulation 0) = some ended ∧
    finished.queue.estimatedRealTime 0 = 50000000 ∧
    ended.queue.estimatedRealTime 0 = model.queue.estimatedRealTime 0 := by
  obtain ⟨model,reached,before⟩ := @exists_of_checked _ _ (System.step (.ascending : HeapAlgorithms Nat Int))
    (fun model => model.queue.estimatedRealTime 0 = 70000000 ∧
      (model.step .ascending (.waitForRealCodeToComplete 0)).any fun finished =>
        finished.queue.estimatedRealTime 0 = 50000000 ∧ (run (System.step .ascending) finished pollsOfBlocked).any fun last =>
          last.queue.estimatedRealTime 0 = 90000002 ∧ (last.step .ascending (.endModelSimulation 0)).isSome)
    (start oneRunnable) beforeModel (by decide +kernel)
  obtain ⟨runTime,finishing⟩ := of_decide_eq_true before
  obtain ⟨finished,finishes,atFinish⟩ := (Option.any_eq_true _ _).mp finishing
  obtain ⟨resumed,polling⟩ := of_decide_eq_true atFinish
  obtain ⟨last,waits,atEnd⟩ := (Option.any_eq_true _ _).mp polling
  obtain ⟨blocker,ending⟩ := of_decide_eq_true atEnd
  obtain ⟨ended,ends⟩ := Option.isSome_iff_exists.mp ending
  refine ⟨model,finished,last,ended,runTime,blocker,ends,resumed,?_⟩
  exact run_time_after_model .ascending oneRunnable 0 beforeModel pollsOfBlocked model finished last ended reached
    finishes waits (by simp [pollsOfBlocked]) ends

end Vexjine.RealCodeWaits
