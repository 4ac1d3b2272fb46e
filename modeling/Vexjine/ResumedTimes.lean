import Vexjine.ThreadTimers
import Vexjine.TimelineRuns

/-!
# Times of resumed threads

The controllers move a thread's times and those of its timeline when a timed wait has
expired and when the thread is resumed. On a single timeline an expired wait keeps its
deadline unless the thread keeps its own time. On multiple timelines a resumed thread is
at the time of its core as long as no other thread's time is added to the core between
the two.
-/

namespace Vexjine.ResumedTimes
open Vexjine.VirtualTimeline
open Vexjine.ThreadTimers (Timers)
open Vexjine.Mutexes (Guarded Locking read)
open Vexjine.TimelineRuns (raise_local refreshed_local)
set_option linter.unusedSimpArgs false

variable {cores : Nat}

/-! ## `MultipleVirtualTimelinesController` -/

namespace Multiple
variable (dynamic : MulticoreClass) (timers : Timers) (localTimelineId : Fin (cores + 1))

def commitTimedWaitingProgress : Locking (Times cores) Unit :=
  Multicore.leapForwardTo dynamic.virtuals timers.estimatedRealTime localTimelineId

def updateInterruptedWaitingThreadTimestamp (interruptTime : Int) : Locking (Times cores) Timers :=
  read fun times => timers.setEstimatedRealTime
    (if interruptTime = 0 ∧ timers.dontUpdateToGlobalTime = false then times.localCoreVirtualTimes localTimelineId
    else interruptTime)

def getLocalTimelineActivationTime : Locking (Times cores) Int :=
  match dynamic with
  | .multicore => Multicore.getLocalTimelineActivationTime dynamic.virtuals timers.estimatedRealTime localTimelineId
  | .disabling => Disabling.getLocalTimelineActivationTime dynamic.virtuals timers.estimatedRealTime localTimelineId

def updateResumingSuspendedThreadResumedLastTimestamp : Locking (Times cores) Timers := do
  let activationTime ← getLocalTimelineActivationTime dynamic timers localTimelineId
  return (timers.leapForwardTo activationTime).updateTimesAfterResuming activationTime

end Multiple

/-! ## Expired waits -/

/-- `interruptTimedWaitingThread` where the leap is valid: the interrupt at time 0, then the resume. -/
def Single.interruptTimedWaitingThread (timers : Timers) : Locking (Times 0) Timers := do
  ThreadTimers.commitTimedWaitingProgress timers
  let timers ← ThreadTimers.updateInterruptedWaitingThreadTimestamp timers 0
  ThreadTimers.updateResumingSuspendedThreadResumedLastTimestamp timers

def Multiple.interruptTimedWaitingThread (dynamic : MulticoreClass) (localTimelineId : Fin (cores + 1)) (timers : Timers) :
    Locking (Times cores) Timers := do
  Multiple.commitTimedWaitingProgress dynamic timers localTimelineId
  let timers ← Multiple.updateInterruptedWaitingThreadTimestamp timers localTimelineId 0
  Multiple.updateResumingSuspendedThreadResumedLastTimestamp dynamic timers localTimelineId

/-- The program returns, with none of the thread's times before the deadline. -/
def ResumesAtDeadline (program : Locking (Times cores) Timers) (times : Times cores) (deadline : Int) : Prop :=
  ∃ resumed timeline, program ⟨times,false⟩ = some (resumed,timeline) ∧
    deadline ≤ resumed.estimatedRealTime ∧ deadline ≤ resumed.resumedLastAt

@[simp] private theorem updated_local (dynamic : MulticoreClass) (time : Int) (times : Times cores) :
    (dynamic.updated time times).localCoreVirtualTimes = times.localCoreVirtualTimes := by
  cases dynamic with
  | multicore =>
    simp only [MulticoreClass.updated]
    split <;> rfl
  | disabling => exact refreshed_local times

@[simp] private theorem run_commitTimedWaitingProgress (dynamic : MulticoreClass) (timers : Timers) (id : Fin (cores + 1))
    (times : Times cores) : Multiple.commitTimedWaitingProgress dynamic timers id ⟨times,false⟩ =
      some ((),⟨(MulticoreOperation.leapForwardTo timers.estimatedRealTime id).effect dynamic times,false⟩) := by
  by_cases later : times.localCoreVirtualTimes id < timers.estimatedRealTime <;>
    simp [Multiple.commitTimedWaitingProgress,MulticoreOperation.effect,Multicore.leapForwardTo,Times.raise,later,
      run_updateGlobalTimeTo]

@[simp] private theorem run_getLocalTimelineActivationTime (dynamic : MulticoreClass) (timers : Timers)
    (id : Fin (cores + 1)) (times : Times cores) : Multiple.getLocalTimelineActivationTime dynamic timers id ⟨times,false⟩ =
      some (max (times.localCoreVirtualTimes id) timers.estimatedRealTime,
        ⟨(MulticoreOperation.getLocalTimelineActivationTime timers.estimatedRealTime id).effect dynamic times,false⟩) := by
  cases dynamic with
  | multicore =>
    by_cases later : times.localCoreVirtualTimes id < timers.estimatedRealTime
    · simp [Multiple.getLocalTimelineActivationTime,MulticoreOperation.effect,Multicore.getLocalTimelineActivationTime,
        Times.raise,later,run_updateGlobalTimeTo,later.le,Times.setLocal]
    · simp [Multiple.getLocalTimelineActivationTime,MulticoreOperation.effect,Multicore.getLocalTimelineActivationTime,
        Times.raise,later,run_updateGlobalTimeTo,not_lt.mp later]
  | disabling =>
    by_cases later : times.localCoreVirtualTimes id < timers.estimatedRealTime
    · simp [Multiple.getLocalTimelineActivationTime,MulticoreOperation.effect,Disabling.getLocalTimelineActivationTime,
        Times.raise,Times.setActive,later,run_updateGlobalTimeTo,later.le,Times.setLocal]
    · simp [Multiple.getLocalTimelineActivationTime,MulticoreOperation.effect,Disabling.getLocalTimelineActivationTime,
        Times.raise,Times.setActive,later,run_updateGlobalTimeTo,not_lt.mp later]

private theorem single_resumes_iff {timers : Timers} {times : Times 0}
    (notLater : times.globalVirtualTime ≤ timers.estimatedRealTime) :
    ResumesAtDeadline (Single.interruptTimedWaitingThread timers) times timers.estimatedRealTime ↔
      if timers.dontUpdateToGlobalTime then timers.estimatedRealTime ≤ 0
      else times.globalVirtualTime = timers.estimatedRealTime ∨
        timers.estimatedRealTime ≤ longLong (timers.estimatedRealTime + times.unknownParallelTime) := by
  cases keepsOwn : timers.dontUpdateToGlobalTime with
  | true =>
    -- the interrupt time 0 is taken for the time of the interrupt
    simp [ResumesAtDeadline,Single.interruptTimedWaitingThread,ThreadTimers.commitTimedWaitingProgress,
      ThreadTimers.run_leapForwardTo,ThreadTimers.updateInterruptedWaitingThreadTimestamp,keepsOwn,
      ThreadTimers.updateResumingSuspendedThreadResumedLastTimestamp,Timers.setEstimatedRealTime,
      Timers.updateTimesAfterResuming]
  | false =>
    simp [ResumesAtDeadline,Single.interruptTimedWaitingThread,ThreadTimers.commitTimedWaitingProgress,
      ThreadTimers.run_leapForwardTo,ThreadTimers.updateInterruptedWaitingThreadTimestamp,keepsOwn,
      ThreadTimers.updateResumingSuspendedThreadResumedLastTimestamp,Timers.setEstimatedRealTime,
      Timers.updateTimesAfterResuming]
    omega

/-- A thread that is not ahead of its core is resumed at the core's time. -/
private theorem resumed_at {timers : Timers} {activationTime : Int} (notAhead : timers.estimatedRealTime ≤ activationTime) :
    ((timers.leapForwardTo activationTime).updateTimesAfterResuming activationTime).estimatedRealTime = activationTime ∧
      ((timers.leapForwardTo activationTime).updateTimesAfterResuming activationTime).resumedLastAt = activationTime := by
  have leapt : (timers.leapForwardTo activationTime).estimatedRealTime = activationTime := by
    rw [Timers.leapForwardTo]
    split
    · rfl
    · omega
  refine ⟨leapt,?_⟩
  rw [Timers.updateTimesAfterResuming]
  dsimp only
  split
  · exact leapt
  · rfl

private theorem multiple_resumes (dynamic : MulticoreClass) (id : Fin (cores + 1)) (timers : Timers) (times : Times cores) :
    ResumesAtDeadline (Multiple.interruptTimedWaitingThread dynamic id timers) times timers.estimatedRealTime := by
  let after := (MulticoreOperation.leapForwardTo timers.estimatedRealTime id).effect dynamic times
  have committed : after.localCoreVirtualTimes id = max (times.localCoreVirtualTimes id) timers.estimatedRealTime := by
    simp [after,MulticoreOperation.effect]
  -- the interrupt sets a time that the activation of the core replaces by the core's, if it is later
  let interrupted := timers.setEstimatedRealTime
    (if timers.dontUpdateToGlobalTime = false then after.localCoreVirtualTimes id else 0)
  let activationTime := max (after.localCoreVirtualTimes id) interrupted.estimatedRealTime
  obtain ⟨time,last⟩ := @resumed_at interrupted activationTime (le_max_right _ _)
  have deadline : timers.estimatedRealTime ≤ activationTime := by
    have core : after.localCoreVirtualTimes id ≤ activationTime := le_max_left _ _
    omega
  refine ⟨(interrupted.leapForwardTo activationTime).updateTimesAfterResuming activationTime,
    ⟨(MulticoreOperation.getLocalTimelineActivationTime interrupted.estimatedRealTime id).effect dynamic after,false⟩,?_,
    deadline.trans time.ge,deadline.trans last.ge⟩
  simp [Multiple.interruptTimedWaitingThread,Multiple.updateInterruptedWaitingThreadTimestamp,
    Multiple.updateResumingSuspendedThreadResumedLastTimestamp,after,interrupted,activationTime]

/-- An expired wait on a single timeline keeps its deadline, for a thread that keeps its own time, only up to the
    time 0, and for others unless the timeline's unaccounted time leads beyond the largest `long long`; on
    multiple timelines it always does. -/
theorem resumes_at_deadline_iff {timers : Timers} {times : Times 0}
    (notLater : times.globalVirtualTime ≤ timers.estimatedRealTime) :
    (ResumesAtDeadline (Single.interruptTimedWaitingThread timers) times timers.estimatedRealTime ↔
      if timers.dontUpdateToGlobalTime then timers.estimatedRealTime ≤ 0
      else times.globalVirtualTime = timers.estimatedRealTime ∨
        timers.estimatedRealTime ≤ longLong (timers.estimatedRealTime + times.unknownParallelTime)) ∧
    ∀ (cores : Nat) (dynamic : MulticoreClass) (id : Fin (cores + 1)) (times : Times cores),
      ResumesAtDeadline (Multiple.interruptTimedWaitingThread dynamic id timers) times timers.estimatedRealTime :=
  ⟨single_resumes_iff notLater,fun _ dynamic id => multiple_resumes dynamic id timers⟩

/-- A thread that keeps its own time waits at 3 for 7 ns. -/
private def remoteWait : Timers :=
  { estimatedRealTime := 10,resumedLastAt := 3,localTimeSinceLastResume := 0,timeout := 7,dontUpdateToGlobalTime := true }

theorem remote_wait_resumes : ((⟨3,0,fun _ => 0,fun _ => false⟩ : Times 0).globalVirtualTime ≤ remoteWait.estimatedRealTime) ∧
    (ResumesAtDeadline (Single.interruptTimedWaitingThread remoteWait) (⟨3,0,fun _ => 0,fun _ => false⟩ : Times 0) 10 ↔
      if remoteWait.dontUpdateToGlobalTime then remoteWait.estimatedRealTime ≤ 0 else (3 : Int) = 10 ∨ 10 ≤ longLong (10 + 0)) ∧
    ∀ (cores : Nat) (dynamic : MulticoreClass) (id : Fin (cores + 1)) (times : Times cores),
      ResumesAtDeadline (Multiple.interruptTimedWaitingThread dynamic id remoteWait) times 10 :=
  ⟨by decide,resumes_at_deadline_iff (by decide)⟩

/-- On a single timeline it is resumed at 0. -/
theorem remote_wait_resumed_at_zero : ¬ ∀ (timers : Timers) (times : Times 0),
    times.globalVirtualTime ≤ timers.estimatedRealTime →
    ResumesAtDeadline (Single.interruptTimedWaitingThread timers) times timers.estimatedRealTime := by
  intro claimed
  obtain ⟨resumed,timeline,executed,deadline,-⟩ := claimed remoteWait ⟨3,0,fun _ => 0,fun _ => false⟩ (by decide)
  have early : Single.interruptTimedWaitingThread remoteWait ⟨⟨3,0,fun _ => 0,fun _ => false⟩,false⟩ =
      some ({ remoteWait with estimatedRealTime := 0,resumedLastAt := 0 },
        ⟨⟨10,0,fun _ => 0,fun _ => false⟩,false⟩) := rfl
  rw [early,Option.some.injEq,Prod.mk.injEq] at executed
  obtain ⟨rfl,-⟩ := executed
  exact absurd deadline (by decide)

/-! ## Resumes between commits -/

/-- Where the scheduler of a core is in `updateResumingSuspendedThreadResumedLastTimestamp`. -/
inductive Position
  | idle
  /-- The timeline's mutex is released, and the core's local time is still to be read. -/
  | activated (state : Timers)
  | updated (state : Timers)
  deriving DecidableEq

structure System (cores : Nat) where
  timeline : Guarded (Times cores)
  position : Fin (cores + 1) → Position

/-- The accesses of the schedulers and of the native-waiting threads that commit their times. -/
inductive Event (cores : Nat)
  | getLocalTimelineActivationTime (core : Fin (cores + 1)) (state : Timers)
  | updateTimesAfterResuming (core : Fin (cores + 1))
  | returns (core : Fin (cores + 1))
  | addTimeOfThreadExecutingAtUnknownTime (forwardTime : Int)

namespace System

def start (times : Times cores) : System cores := ⟨⟨times,false⟩,fun _ => .idle⟩

variable (system : System cores)

def setPosition (core : Fin (cores + 1)) (position : Position) : System cores :=
  { system with position := Function.update system.position core position }

def call (dynamic : MulticoreClass) (operation : MulticoreOperation cores) : Option (System cores) :=
  (operation.perform dynamic system.timeline).map fun result => { system with timeline := result.2 }

end System

/-- The answer of the activation is a reference to the local time, which the next access reads. -/
def step (dynamic : MulticoreClass) (system : System cores) : Event cores → Option (System cores)
  | .getLocalTimelineActivationTime core state => if system.position core = .idle then
      (system.call dynamic (.getLocalTimelineActivationTime state.estimatedRealTime core)).map fun next =>
        next.setPosition core (.activated state)
    else none
  | .updateTimesAfterResuming core => match system.position core with
    | .activated state =>
      let activationTime := system.timeline.data.localCoreVirtualTimes core
      some (system.setPosition core
        (.updated ((state.leapForwardTo activationTime).updateTimesAfterResuming activationTime)))
    | _ => none
  | .returns core => match system.position core with
    | .updated _ => some (system.setPosition core .idle)
    | _ => none
  | .addTimeOfThreadExecutingAtUnknownTime forwardTime => system.call dynamic (.addTimeOfThreadExecutingAtUnknownTime forwardTime)

/-- What the assertions say at the return: the thread and its core are at the same time. -/
def Synchronized (system : System cores) (event : Event cores) : Prop :=
  ∀ core state, event = .returns core → system.position core = .updated state →
    state.estimatedRealTime = system.timeline.data.localCoreVirtualTimes core ∧
      state.resumedLastAt = system.timeline.data.localCoreVirtualTimes core

/-- A commit adds to the slowest core. It leaves a core's time that has been read as it is, and takes no core
    back behind the thread that it is activated for. -/
def LeavesReadCores (system : System cores) : Event cores → Prop
  | .addTimeOfThreadExecutingAtUnknownTime forwardTime =>
    let core := system.timeline.data.oldestCore
    let time := longLong (system.timeline.data.localCoreVirtualTimes core + forwardTime)
    match system.position core with
    | .idle => True
    | .activated state => state.estimatedRealTime ≤ time
    | .updated _ => time = system.timeline.data.localCoreVirtualTimes core
  | _ => True

instance (system : System cores) : (event : Event cores) → Decidable (LeavesReadCores system event)
  | .addTimeOfThreadExecutingAtUnknownTime _ => by
    unfold LeavesReadCores
    dsimp only
    split <;> infer_instance
  | .getLocalTimelineActivationTime _ _ | .updateTimesAfterResuming _ | .returns _ => .isTrue trivial

section Resumes
variable {dynamic : MulticoreClass} {system next : System cores}

/-- What holds of a core's time at a position of its scheduler. -/
private def AtCore (time : Int) : Position → Prop
  | .idle => True
  | .activated state => state.estimatedRealTime ≤ time
  | .updated state => state.estimatedRealTime = time ∧ state.resumedLastAt = time

private structure Coherent (system : System cores) : Prop where
  free : system.timeline.held = false
  atCore : ∀ core, AtCore (system.timeline.data.localCoreVirtualTimes core) (system.position core)

private theorem call_effect {operation : MulticoreOperation cores} (free : system.timeline.held = false)
    (called : system.call dynamic operation = some next) :
    next = { system with timeline := ⟨operation.effect dynamic system.timeline.data,false⟩ } := by
  obtain ⟨⟨times,held⟩,position⟩ := system
  cases free
  simp only [System.call,Option.map_eq_some_iff] at called
  obtain ⟨⟨answer,after⟩,executed,rfl⟩ := called
  rw [effect_of_perform executed]

private theorem atCore_setPosition {core : Fin (cores + 1)} {position : Position} {times : Times cores}
    (coherent : ∀ other, other ≠ core → AtCore (times.localCoreVirtualTimes other) (system.position other))
    (own : AtCore (times.localCoreVirtualTimes core) position) (other : Fin (cores + 1)) :
    AtCore (times.localCoreVirtualTimes other) (Function.update system.position core position other) := by
  rcases eq_or_ne other core with rfl | different
  · rwa [Function.update_self]
  · rw [Function.update_of_ne different]
    exact coherent other different

/-- By cases on the access, then on whether the core is the one that it is about. -/
private theorem step_coherent {event : Event cores} (coherent : Coherent system) (leaves : LeavesReadCores system event)
    (stepped : step dynamic system event = some next) : Coherent next := by
  obtain ⟨free,atCore⟩ := coherent
  cases event with
  | getLocalTimelineActivationTime core state =>
    simp only [step,Option.ite_none_right_eq_some,Option.map_eq_some_iff] at stepped
    obtain ⟨-,called,executed,rfl⟩ := stepped
    obtain rfl := call_effect free executed
    have locals : ∀ other, ((MulticoreOperation.getLocalTimelineActivationTime state.estimatedRealTime core).effect dynamic
        system.timeline.data).localCoreVirtualTimes other =
          if other = core then max (system.timeline.data.localCoreVirtualTimes core) state.estimatedRealTime
          else system.timeline.data.localCoreVirtualTimes other := fun other => by
      cases dynamic <;> simp [MulticoreOperation.effect,Times.setActive]
    generalize (MulticoreOperation.getLocalTimelineActivationTime state.estimatedRealTime core).effect dynamic
      system.timeline.data = after at locals
    refine ⟨rfl,atCore_setPosition (fun other different => ?_) ?_⟩
    · show AtCore (after.localCoreVirtualTimes other) (system.position other)
      rw [locals,if_neg different]
      exact atCore other
    · show state.estimatedRealTime ≤ after.localCoreVirtualTimes core
      rw [locals,if_pos rfl]
      exact le_max_right _ _
  | updateTimesAfterResuming core =>
    simp only [step] at stepped
    split at stepped
    · next state position =>
      cases stepped
      have notAhead := atCore core
      rw [position] at notAhead
      exact ⟨free,atCore_setPosition (fun other _ => atCore other) (resumed_at notAhead)⟩
    · cases stepped
  | returns core =>
    simp only [step] at stepped
    split at stepped
    · cases stepped
      exact ⟨free,atCore_setPosition (fun other _ => atCore other) trivial⟩
    · cases stepped
  | addTimeOfThreadExecutingAtUnknownTime forwardTime =>
    obtain rfl := call_effect free stepped
    refine ⟨rfl,fun core => ?_⟩
    have before := atCore core
    simp only [LeavesReadCores] at leaves
    simp only [MulticoreOperation.effect,updated_local]
    rcases eq_or_ne core system.timeline.data.oldestCore with rfl | different
    · simp only [Times.setLocal,Function.update_self]
      cases position : system.position system.timeline.data.oldestCore with
      | idle => trivial
      | activated state =>
        rw [position] at leaves
        exact leaves
      | updated state =>
        rw [position] at leaves before
        rw [leaves]
        exact before
    · simpa only [Times.setLocal,Function.update_of_ne different] using before

/-- In every run, for every class of the timeline and every state that it starts in, a resumed thread is at the
    time of its core when the method returns, as long as no commit moves a core between the reading of its time
    and the return. -/
theorem resumes_synchronized (dynamic : MulticoreClass) (times : Times cores) (events : List (Event cores))
    (leaves : Runs.Meets (step dynamic) LeavesReadCores (.start times) events) :
    Runs.Meets (step dynamic) Synchronized (.start times) events := by
  have start : Coherent (.start times : System cores) := ⟨rfl,fun _ => trivial⟩
  refine Runs.meets_of_invariant (fun _ _ _ inv holds stepped => step_coherent inv holds stepped)
    (fun system event inv _ => ?_) start leaves
  rintro core state - position
  have atCore := inv.atCore core
  rwa [position] at atCore

/-- Two cores at 0 and 20: a thread is resumed at 5 on the first one after another one has committed 3 ns there. -/
private def resumedAfterCommit : List (Event 1) :=
  [.addTimeOfThreadExecutingAtUnknownTime 3,.getLocalTimelineActivationTime 0 { estimatedRealTime := 5 },
    .addTimeOfThreadExecutingAtUnknownTime 2,.updateTimesAfterResuming 0,.returns 0,
    .addTimeOfThreadExecutingAtUnknownTime 4]

private def apart : Times 1 := { localCoreVirtualTimes := fun core => if core = 0 then 0 else 20 }

theorem resumed_after_commit_synchronized : (Runs.run (step .multicore) (.start apart) resumedAfterCommit).isSome = true ∧
    Runs.Meets (step .multicore) Synchronized (.start apart) resumedAfterCommit :=
  ⟨by decide,resumes_synchronized .multicore apart resumedAfterCommit (by decide)⟩

/-- A native-waiting thread commits 2 ns to the core when its time has just been read. -/
theorem commit_before_return_separates : ¬ ∀ (dynamic : MulticoreClass) (times : Times 1) (events : List (Event 1)),
    Runs.Meets (step dynamic) Synchronized (.start times) events := by
  intro claimed
  have meets := claimed .multicore apart ([.getLocalTimelineActivationTime 0 { estimatedRealTime := 5 },
    .updateTimesAfterResuming 0,.addTimeOfThreadExecutingAtUnknownTime 2] ++ [.returns 0])
  obtain ⟨synchronized,-⟩ := Runs.meets_of_append meets rfl
  exact absurd (synchronized 0 _ rfl rfl).1 (by decide)

end Resumes

end Vexjine.ResumedTimes
