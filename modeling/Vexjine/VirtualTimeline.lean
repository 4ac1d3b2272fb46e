import Vexjine.Runs
import Vexjine.Scans
import Vexjine.Mutexes

/-!
# The virtual timelines

The single, the multicore and the disabling timeline over one record of times
behind the timeline's mutex. A method of the multicore class that calls a
virtual method takes the overrides of the object's class as an argument. A
subclass with the name of a strict disabling timeline is not in the sources.
-/

namespace Vexjine.VirtualTimeline
open Vexjine.Mutexes (Locking Guarded Disciplined lock unlock read write)
set_option linter.unusedSimpArgs false

/-- The largest `long long`; the scans of the active cores start from it. -/
def LLONG_MAX : Int := 2 ^ 63 - 1

/-- What a `long long` keeps of an integer. -/
def longLong (value : Int) : Int := Int.bmod value (2 ^ 64)

/-- The fields of the timelines, in the order of their classes: a single timeline has the first
    two, a multicore one also the local times, a disabling one also the activity of its cores. -/
structure Times (cores : Nat) where
  globalVirtualTime : Int := 0
  unknownParallelTime : Int := 0
  localCoreVirtualTimes : Fin (cores + 1) → Int := fun _ => 0
  localCoreActive : Fin (cores + 1) → Bool := fun _ => false

namespace Times
variable {cores : Nat}

def setGlobal (times : Times cores) (time : Int) : Times cores := { times with globalVirtualTime := time }

def setUnknown (times : Times cores) (time : Int) : Times cores := { times with unknownParallelTime := time }

def setLocal (times : Times cores) (id : Fin (cores + 1)) (time : Int) : Times cores :=
  { times with localCoreVirtualTimes := Function.update times.localCoreVirtualTimes id time }

def setAllLocal (times : Times cores) (time : Int) : Times cores :=
  { times with localCoreVirtualTimes := fun _ => time }

def setActive (times : Times cores) (id : Fin (cores + 1)) (active : Bool) : Times cores :=
  { times with localCoreActive := Function.update times.localCoreActive id active }

/-- The scan of the active cores for the oldest local time. -/
def oldestActive (times : Times cores) : Int :=
  Scans.least times.localCoreActive times.localCoreVirtualTimes LLONG_MAX (List.finRange (cores + 1))

/-- The global time set to the oldest active local time, unless the scan found none. -/
def refreshed (times : Times cores) : Times cores :=
  if times.oldestActive ≠ LLONG_MAX then times.setGlobal times.oldestActive else times

/-- The latest local time, over all cores. -/
def latest (times : Times cores) : Int :=
  Scans.greatest times.localCoreVirtualTimes (times.localCoreVirtualTimes 0) (List.finRange (cores + 1)).tail

/-- The first core with the oldest local time, over all cores. -/
def oldestCore (times : Times cores) : Fin (cores + 1) :=
  Scans.leastIndex times.localCoreVirtualTimes 0 (List.finRange (cores + 1)).tail

end Times

section Operations
variable {cores : Nat}

/-! ## `VirtualTimeline` -/

namespace Single

def reset : Locking (Times cores) Unit := write fun times => (times.setGlobal 0).setUnknown 0

def leapForwardTo (forwardTime : Int) : Locking (Times cores) Unit := do
  lock
  let target ← read fun times => longLong (forwardTime + times.unknownParallelTime)
  let current ← read Times.globalVirtualTime
  if target > current then
    write fun times => times.setGlobal target
  write fun times => times.setUnknown 0
  unlock

def addTimeOfUnknownRealTimeDurationAndSynchronize (forwardTime : Int) : Locking (Times cores) Unit := do
  lock
  write fun times => times.setGlobal (longLong (times.globalVirtualTime + forwardTime))
  unlock

def addTimeOfThreadExecutingAtUnknownTime (forwardTime : Int) : Locking (Times cores) Unit := do
  lock
  write fun times => times.setGlobal (longLong (times.globalVirtualTime + forwardTime))
  write fun times => times.setUnknown (longLong (times.unknownParallelTime + forwardTime))
  unlock

end Single

/-! ## `MulticoreVirtualTimeline` -/

/-- The virtual methods that other methods call. -/
structure Virtuals (cores : Nat) where
  updateGlobalTimeTo : Int → Locking (Times cores) Unit
  disableLocalTimeline : Fin (cores + 1) → Locking (Times cores) Bool

namespace Multicore

def reset : Locking (Times cores) Unit := do
  lock
  write fun times => times.setGlobal 0
  write fun times => times.setAllLocal 0
  unlock

def updateGlobalTimeTo (time : Int) : Locking (Times cores) Unit := do
  let current ← read Times.globalVirtualTime
  if current < time then
    write fun times => times.setGlobal time

def leapForwardTo (self : Virtuals cores) (time : Int) (localTimelineId : Fin (cores + 1)) :
    Locking (Times cores) Unit := do
  lock
  if (← read fun times => times.localCoreVirtualTimes localTimelineId) < time then
    write fun times => times.setLocal localTimelineId time
  self.updateGlobalTimeTo (← read fun times => times.localCoreVirtualTimes localTimelineId)
  unlock

def addTimeOfUnknownRealTimeDurationAndSynchronize (self : Virtuals cores) (forwardTime : Int) :
    Locking (Times cores) Unit := do
  lock
  let max ← read fun times => longLong (times.latest + forwardTime)
  write fun times => times.setAllLocal max
  self.updateGlobalTimeTo max
  unlock

def addTimeOfThreadExecutingAtUnknownTime (self : Virtuals cores) (forwardTime : Int) :
    Locking (Times cores) Unit := do
  lock
  let minimumLocalTimelineId ← read Times.oldestCore
  write fun times => times.setLocal minimumLocalTimelineId
    (longLong (times.localCoreVirtualTimes minimumLocalTimelineId + forwardTime))
  self.updateGlobalTimeTo (← read fun times => times.localCoreVirtualTimes minimumLocalTimelineId)
  unlock

def shouldBlockCoreProgress (self : Virtuals cores) (schedulerTimeslot : Int) (localTimelineId : Fin (cores + 1)) :
    Locking (Times cores) Bool := do
  lock
  let ahead ← read fun times => longLong (times.localCoreVirtualTimes localTimelineId - times.globalVirtualTime)
  let ret ← if ahead > schedulerTimeslot then do
      let areAllCoresDisabled ← self.disableLocalTimeline localTimelineId
      pure !areAllCoresDisabled
    else pure false
  unlock
  return ret

def disableLocalTimeline (_ : Fin (cores + 1)) : Locking (Times cores) Bool := return false

def getLocalTimelineActivationTime (self : Virtuals cores) (threadTime : Int) (localTimelineId : Fin (cores + 1)) :
    Locking (Times cores) Int := do
  lock
  if (← read fun times => times.localCoreVirtualTimes localTimelineId) < threadTime then
    write fun times => times.setLocal localTimelineId threadTime
  self.updateGlobalTimeTo threadTime
  unlock
  read fun times => times.localCoreVirtualTimes localTimelineId

def getUpdatedGlobalTime : Locking (Times cores) Int := read Times.globalVirtualTime

end Multicore

/-! ## `DisablingMulticoreVirtualTimeline` -/

namespace Disabling

def reset : Locking (Times cores) Unit := do
  lock
  write fun times => times.setGlobal 0
  write fun times => { times.setAllLocal 0 with localCoreActive := fun _ => false }
  unlock

/-- The argument is unused. -/
def updateGlobalTimeTo (_ : Int) : Locking (Times cores) Unit := write Times.refreshed

/-- The scan for a core that is still active unlocks at its early return and at its end. -/
def allInactive : List (Fin (cores + 1)) → Locking (Times cores) Bool
  | [] => do
    unlock
    return true
  | core :: rest => do
    if (← read fun times => times.localCoreActive core) then
      unlock
      return false
    else allInactive rest

def disableLocalTimeline (localTimelineId : Fin (cores + 1)) : Locking (Times cores) Bool := do
  lock
  write fun times => times.setActive localTimelineId false
  allInactive (List.finRange (cores + 1))

def getLocalTimelineActivationTime (self : Virtuals cores) (threadTime : Int) (localTimelineId : Fin (cores + 1)) :
    Locking (Times cores) Int := do
  lock
  write fun times => times.setActive localTimelineId true
  if (← read fun times => times.localCoreVirtualTimes localTimelineId) < threadTime then
    write fun times => times.setLocal localTimelineId threadTime
  self.updateGlobalTimeTo threadTime
  unlock
  read fun times => times.localCoreVirtualTimes localTimelineId

def getUpdatedGlobalTime : Locking (Times cores) Int := do
  lock
  write Times.refreshed
  unlock
  read Times.globalVirtualTime

end Disabling

/-! ## Calls on an object of each class -/

inductive MulticoreClass
  | multicore
  | disabling
  deriving DecidableEq

/-- The overrides of a class for the virtual methods that other methods call. -/
def MulticoreClass.virtuals : MulticoreClass → Virtuals cores
  | .multicore => ⟨Multicore.updateGlobalTimeTo,Multicore.disableLocalTimeline⟩
  | .disabling => ⟨Disabling.updateGlobalTimeTo,Disabling.disableLocalTimeline⟩

/-- The public methods of a single timeline. They call no virtual method. -/
inductive SingleOperation
  | reset
  | leapForwardTo (forwardTime : Int)
  | addTimeOfUnknownRealTimeDurationAndSynchronize (forwardTime : Int)
  | addTimeOfThreadExecutingAtUnknownTime (forwardTime : Int)

/-- The public methods of a multicore timeline; its two-argument leap hides the inherited one. -/
inductive MulticoreOperation (cores : Nat)
  | reset
  | updateGlobalTimeTo (time : Int)
  | leapForwardTo (time : Int) (localTimelineId : Fin (cores + 1))
  | addTimeOfUnknownRealTimeDurationAndSynchronize (forwardTime : Int)
  | addTimeOfThreadExecutingAtUnknownTime (forwardTime : Int)
  | shouldBlockCoreProgress (schedulerTimeslot : Int) (localTimelineId : Fin (cores + 1))
  | disableLocalTimeline (localTimelineId : Fin (cores + 1))
  | getLocalTimelineActivationTime (threadTime : Int) (localTimelineId : Fin (cores + 1))
  | getUpdatedGlobalTime

inductive Answer
  | done
  | flag (value : Bool)
  | time (value : Int)
  deriving DecidableEq

def SingleOperation.perform : SingleOperation → Locking (Times cores) Answer
  | .reset => do
    Single.reset
    return .done
  | .leapForwardTo forwardTime => do
    Single.leapForwardTo forwardTime
    return .done
  | .addTimeOfUnknownRealTimeDurationAndSynchronize forwardTime => do
    Single.addTimeOfUnknownRealTimeDurationAndSynchronize forwardTime
    return .done
  | .addTimeOfThreadExecutingAtUnknownTime forwardTime => do
    Single.addTimeOfThreadExecutingAtUnknownTime forwardTime
    return .done

/-- A method called on an object of the class, with the overrides of that class. -/
def MulticoreOperation.perform (dynamic : MulticoreClass) : MulticoreOperation cores → Locking (Times cores) Answer
  | .reset => do
    match dynamic with
    | .multicore => Multicore.reset
    | .disabling => Disabling.reset
    return .done
  | .updateGlobalTimeTo time => do
    dynamic.virtuals.updateGlobalTimeTo time
    return .done
  | .leapForwardTo time localTimelineId => do
    Multicore.leapForwardTo dynamic.virtuals time localTimelineId
    return .done
  | .addTimeOfUnknownRealTimeDurationAndSynchronize forwardTime => do
    Multicore.addTimeOfUnknownRealTimeDurationAndSynchronize dynamic.virtuals forwardTime
    return .done
  | .addTimeOfThreadExecutingAtUnknownTime forwardTime => do
    Multicore.addTimeOfThreadExecutingAtUnknownTime dynamic.virtuals forwardTime
    return .done
  | .shouldBlockCoreProgress schedulerTimeslot localTimelineId =>
    .flag <$> Multicore.shouldBlockCoreProgress dynamic.virtuals schedulerTimeslot localTimelineId
  | .disableLocalTimeline localTimelineId =>
    .flag <$> dynamic.virtuals.disableLocalTimeline localTimelineId
  | .getLocalTimelineActivationTime threadTime localTimelineId =>
    .time <$> match dynamic with
      | .multicore => Multicore.getLocalTimelineActivationTime dynamic.virtuals threadTime localTimelineId
      | .disabling => Disabling.getLocalTimelineActivationTime dynamic.virtuals threadTime localTimelineId
  | .getUpdatedGlobalTime =>
    .time <$> match dynamic with
      | .multicore => Multicore.getUpdatedGlobalTime
      | .disabling => Disabling.getUpdatedGlobalTime

/-- A method called on a timeline of any class. -/
inductive Call (cores : Nat)
  | single (operation : SingleOperation)
  | multicore (dynamic : MulticoreClass) (operation : MulticoreOperation cores)

def Call.perform : Call cores → Locking (Times cores) Answer
  | .single operation => operation.perform
  | .multicore dynamic operation => operation.perform dynamic

/-- The one path on which a method calls a locking override while it holds the mutex: a core of
    a disabling timeline that is more than a timeslot ahead of the global time. -/
def LocksTwice (times : Times cores) : Call cores → Prop
  | .multicore .disabling (.shouldBlockCoreProgress schedulerTimeslot localTimelineId) =>
    schedulerTimeslot < longLong (times.localCoreVirtualTimes localTimelineId - times.globalVirtualTime)
  | _ => False

theorem run_allInactive (cores' : List (Fin (cores + 1))) (state : Guarded (Times cores)) :
    Disabling.allInactive cores' state =
      some (cores'.all fun core => !state.data.localCoreActive core,⟨state.data,false⟩) := by
  induction cores' with
  | nil => simp [Disabling.allInactive]
  | cons core rest ih => cases active : state.data.localCoreActive core <;> simp [Disabling.allInactive,active,ih]

/-! ## What a call does -/

/-- A local time moved forward to the given one, never back. -/
def Times.raise (times : Times cores) (id : Fin (cores + 1)) (time : Int) : Times cores :=
  if times.localCoreVirtualTimes id < time then times.setLocal id time else times

/-- The class's update of the global time after a change of the local times. -/
def MulticoreClass.updated (dynamic : MulticoreClass) (time : Int) (times : Times cores) : Times cores :=
  match dynamic with
  | .multicore => if times.globalVirtualTime < time then times.setGlobal time else times
  | .disabling => times.refreshed

/-- The times a call leaves behind when it returns. -/
def MulticoreOperation.effect (dynamic : MulticoreClass) (times : Times cores) : MulticoreOperation cores → Times cores
  | .reset => match dynamic with
    | .multicore => (times.setGlobal 0).setAllLocal 0
    | .disabling => { (times.setGlobal 0).setAllLocal 0 with localCoreActive := fun _ => false }
  | .updateGlobalTimeTo time => dynamic.updated time times
  | .leapForwardTo time id =>
    dynamic.updated ((times.raise id time).localCoreVirtualTimes id) (times.raise id time)
  | .addTimeOfUnknownRealTimeDurationAndSynchronize forwardTime =>
    dynamic.updated (longLong (times.latest + forwardTime)) (times.setAllLocal (longLong (times.latest + forwardTime)))
  | .addTimeOfThreadExecutingAtUnknownTime forwardTime =>
    let time := longLong (times.localCoreVirtualTimes times.oldestCore + forwardTime)
    dynamic.updated time (times.setLocal times.oldestCore time)
  | .shouldBlockCoreProgress _ _ => times
  | .disableLocalTimeline id => match dynamic with
    | .multicore => times
    | .disabling => times.setActive id false
  | .getLocalTimelineActivationTime threadTime id => match dynamic with
    | .multicore => dynamic.updated threadTime (times.raise id threadTime)
    | .disabling => dynamic.updated threadTime ((times.setActive id true).raise id threadTime)
  | .getUpdatedGlobalTime => match dynamic with
    | .multicore => times
    | .disabling => times.refreshed

theorem run_updateGlobalTimeTo (dynamic : MulticoreClass) (time : Int) (times : Times cores) (held : Bool) :
    dynamic.virtuals.updateGlobalTimeTo time ⟨times,held⟩ = some ((),⟨dynamic.updated time times,held⟩) := by
  cases dynamic with
  | multicore =>
    by_cases later : times.globalVirtualTime < time <;>
      simp [MulticoreClass.virtuals,MulticoreClass.updated,Multicore.updateGlobalTimeTo,later]
  | disabling => simp [MulticoreClass.virtuals,MulticoreClass.updated,Disabling.updateGlobalTimeTo]

/-- A call that does not lock twice returns with the mutex free and the described effect. -/
theorem perform_returns (dynamic : MulticoreClass) (operation : MulticoreOperation cores) (times : Times cores)
    (once : ¬ LocksTwice times (.multicore dynamic operation)) :
    ∃ answer, operation.perform dynamic ⟨times,false⟩ = some (answer,⟨operation.effect dynamic times,false⟩) := by
  cases operation with
  | reset =>
    cases dynamic with
    | multicore => exact ⟨.done,rfl⟩
    | disabling => exact ⟨.done,rfl⟩
  | updateGlobalTimeTo time =>
    refine ⟨.done,?_⟩
    simp [MulticoreOperation.perform,MulticoreOperation.effect,run_updateGlobalTimeTo]
  | leapForwardTo time id =>
    refine ⟨.done,?_⟩
    by_cases later : times.localCoreVirtualTimes id < time <;>
      simp [MulticoreOperation.perform,MulticoreOperation.effect,Multicore.leapForwardTo,Times.raise,later,
        run_updateGlobalTimeTo]
  | addTimeOfUnknownRealTimeDurationAndSynchronize forwardTime =>
    refine ⟨.done,?_⟩
    simp [MulticoreOperation.perform,MulticoreOperation.effect,
      Multicore.addTimeOfUnknownRealTimeDurationAndSynchronize,run_updateGlobalTimeTo]
  | addTimeOfThreadExecutingAtUnknownTime forwardTime =>
    refine ⟨.done,?_⟩
    simp [MulticoreOperation.perform,MulticoreOperation.effect,Multicore.addTimeOfThreadExecutingAtUnknownTime,
      run_updateGlobalTimeTo,Times.setLocal]
  | shouldBlockCoreProgress slot id =>
    cases dynamic with
    | multicore =>
      by_cases ahead : longLong (times.localCoreVirtualTimes id - times.globalVirtualTime) > slot
      · refine ⟨.flag true,?_⟩
        simp [MulticoreOperation.perform,MulticoreOperation.effect,Multicore.shouldBlockCoreProgress,ahead,
          MulticoreClass.virtuals,Multicore.disableLocalTimeline]
      · refine ⟨.flag false,?_⟩
        simp [MulticoreOperation.perform,MulticoreOperation.effect,Multicore.shouldBlockCoreProgress,ahead]
    | disabling =>
      have near : ¬ longLong (times.localCoreVirtualTimes id - times.globalVirtualTime) > slot := once
      refine ⟨.flag false,?_⟩
      simp [MulticoreOperation.perform,MulticoreOperation.effect,Multicore.shouldBlockCoreProgress,near]
  | disableLocalTimeline id =>
    cases dynamic with
    | multicore => exact ⟨.flag false,rfl⟩
    | disabling => exact ⟨_,by simp [MulticoreOperation.perform,MulticoreOperation.effect,MulticoreClass.virtuals,
        Disabling.disableLocalTimeline,run_allInactive]; rfl⟩
  | getLocalTimelineActivationTime threadTime id =>
    cases dynamic with
    | multicore =>
      refine ⟨.time ((MulticoreClass.multicore.updated threadTime (times.raise id threadTime)).localCoreVirtualTimes id),?_⟩
      by_cases later : times.localCoreVirtualTimes id < threadTime <;>
        simp [MulticoreOperation.perform,MulticoreOperation.effect,Multicore.getLocalTimelineActivationTime,
          Times.raise,later,run_updateGlobalTimeTo]
    | disabling =>
      refine ⟨.time ((MulticoreClass.disabling.updated threadTime
        ((times.setActive id true).raise id threadTime)).localCoreVirtualTimes id),?_⟩
      by_cases later : times.localCoreVirtualTimes id < threadTime <;>
        simp [MulticoreOperation.perform,MulticoreOperation.effect,Disabling.getLocalTimelineActivationTime,
          Times.raise,Times.setActive,later,run_updateGlobalTimeTo]
  | getUpdatedGlobalTime =>
    cases dynamic with
    | multicore => exact ⟨_,rfl⟩
    | disabling => exact ⟨_,rfl⟩

/-! ## Mutex discipline -/

private theorem single_disciplined (operation : SingleOperation) (times : Times cores) :
    Disciplined (operation.perform : Locking (Times cores) Answer) times := by
  cases operation with
  | reset => exact Mutexes.disciplined_of_run rfl
  | leapForwardTo forwardTime =>
    by_cases later : longLong (forwardTime + times.unknownParallelTime) > times.globalVirtualTime
    · exact ⟨.done,(times.setGlobal (longLong (forwardTime + times.unknownParallelTime))).setUnknown 0,
        by simp [SingleOperation.perform,Single.leapForwardTo,later]⟩
    · exact ⟨.done,times.setUnknown 0,by simp [SingleOperation.perform,Single.leapForwardTo,later]⟩
  | addTimeOfUnknownRealTimeDurationAndSynchronize forwardTime => exact Mutexes.disciplined_of_run rfl
  | addTimeOfThreadExecutingAtUnknownTime forwardTime => exact Mutexes.disciplined_of_run rfl

private theorem perform_stuck (times : Times cores) (slot : Int) (id : Fin (cores + 1))
    (ahead : slot < longLong (times.localCoreVirtualTimes id - times.globalVirtualTime)) :
    (MulticoreOperation.shouldBlockCoreProgress slot id).perform .disabling ⟨times,false⟩ = none := by
  have blocks : longLong (times.localCoreVirtualTimes id - times.globalVirtualTime) > slot := ahead
  simp [MulticoreOperation.perform,Multicore.shouldBlockCoreProgress,blocks,MulticoreClass.virtuals,
    Disabling.disableLocalTimeline]

/-- A call that returned has its described effect. -/
theorem effect_of_perform {dynamic : MulticoreClass} {operation : MulticoreOperation cores} {times : Times cores}
    {answer : Answer} {after : Guarded (Times cores)}
    (executed : operation.perform dynamic ⟨times,false⟩ = some (answer,after)) :
    after = ⟨operation.effect dynamic times,false⟩ := by
  by_cases twice : LocksTwice times (.multicore dynamic operation)
  · cases dynamic with
    | multicore => cases twice
    | disabling =>
      cases operation with
      | shouldBlockCoreProgress slot id =>
        rw [perform_stuck times slot id twice] at executed
        cases executed
      | _ => cases twice
  · obtain ⟨other,returned⟩ := perform_returns dynamic operation times twice
    rw [returned,Option.some.injEq,Prod.mk.injEq] at executed
    exact executed.2.symm

/-- A call started with the mutex free returns with the mutex free and never locks it twice,
    exactly when it is not the block of a core of a disabling timeline that is more than a
    timeslot ahead. -/
theorem mutex_discipline_iff (call : Call cores) (times : Times cores) :
    Disciplined call.perform times ↔ ¬ LocksTwice times call := by
  cases call with
  | single operation => exact ⟨fun _ => id,fun _ => single_disciplined operation times⟩
  | multicore dynamic operation =>
    constructor
    · rintro disciplined twice
      cases dynamic with
      | multicore => cases twice
      | disabling =>
        cases operation with
        | shouldBlockCoreProgress slot id =>
          exact Mutexes.not_disciplined_of_stuck (perform_stuck times slot id twice) disciplined
        | _ => cases twice
    · intro once
      obtain ⟨answer,executed⟩ := perform_returns dynamic operation times once
      exact Mutexes.disciplined_of_run executed

end Operations

/-- Two cores activated at 10 and 0: core 0 is 10 ahead, and its block for a timeslot of 5 never returns. -/
theorem block_of_leading_core_hangs : ∃ (calls : List (MulticoreOperation 1)) (times : Times 1),
    Runs.run (fun state operation => (operation.perform .disabling state).map Prod.snd) ⟨{},false⟩ calls =
      some ⟨times,false⟩ ∧
    ¬ Disciplined (Call.multicore .disabling (.shouldBlockCoreProgress 5 0)).perform times := by
  refine ⟨[.getLocalTimelineActivationTime 10 0,.getLocalTimelineActivationTime 0 1],_,rfl,?_⟩
  exact Mutexes.not_disciplined_of_stuck (by decide)

end Vexjine.VirtualTimeline
