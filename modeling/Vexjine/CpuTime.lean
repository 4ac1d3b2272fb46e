import Vexjine.Runs

/-!
# Charging CPU time

What the event handlers of a thread that is never native waiting do to its CPU
timers, with every scaling factor 1 and every delay 0. The entries and the manager
charge the time since `lastCPUTime`, which most exits then move; a handler that
charges in its entry and again in the manager charges the same time twice.
-/

namespace Vexjine.CpuTime
set_option linter.unusedSimpArgs false

/-! ## The timers -/

/-- The CPU timers of a thread. The last three fields are not read by any step: the clock's last
    reading, and the intervals that were charged, the newest first, with how many of them were
    charged since the last resume. -/
structure Timers where
  virtualTime : Int
  lastCPUTime : Int
  localTimeSinceLastResume : Int
  clock : Int
  charged : List (Int × Int)
  recent : Nat
  deriving DecidableEq

/-- A `long long` after a multiplication with two `float`s that are 1: rounded to 24 significant bits,
    to the nearest, and from the middle to the even one. -/
def throughFloat (difference : Int) : Int :=
  let magnitude := difference.natAbs
  let unit := 2 ^ (magnitude.log2 + 1 - 24)
  let quotient := magnitude / unit
  let rest := magnitude % unit
  let rounded := if unit < 2 * rest ∨ 2 * rest = unit ∧ quotient % 2 = 1 then quotient + 1 else quotient
  difference.sign * (rounded * unit : Nat)

/-- Differences below 2^24 ns are charged as they are. -/
theorem throughFloat_of_small {difference : Int} (small : difference.natAbs < 2 ^ 24) :
    throughFloat difference = difference := by
  have noUnit : difference.natAbs.log2 + 1 - 24 = 0 := by
    by_cases zero : difference.natAbs = 0
    · simp [zero]
    · have := (Nat.log2_lt zero).mpr small
      omega
  simp [throughFloat,noUnit,Nat.mod_one,Int.sign_mul_abs]

namespace Timers
variable (timers : Timers)

/-- `addLocalTime` for the time between the two readings. -/
def addLocalTime (between : Int × Int) : Timers :=
  { timers with
    virtualTime := timers.virtualTime + throughFloat (between.2 - between.1)
    localTimeSinceLastResume := timers.localTimeSinceLastResume + throughFloat (between.2 - between.1)
    charged := between :: timers.charged
    recent := timers.recent + 1 }

def updateThreadLocalTimeSinceLastResumeTo (presetTime : Int) : Timers :=
  if 0 < presetTime - timers.lastCPUTime then timers.addLocalTime (timers.lastCPUTime,presetTime) else timers

def updateCpuTimeClock (now : Int) : Timers := { timers with lastCPUTime := now }

/-- Of `updateTimesAfterResuming` and `getAndResetLocalTime`, what both do to these timers. -/
def resetLocalTime : Timers := { timers with localTimeSinceLastResume := 0,recent := 0 }

end Timers

/-- What a handler does to the timers, in its order, with the readings of the clock. -/
inductive Operation
  | updateThreadLocalTimeSinceLastResumeTo (presetTime : Int)
  | setCurrentThreadVT (startingTime : Int)
  | updateCpuTimeClock (now : Int)
  | resetLocalTime
  deriving DecidableEq

/-- `setCurrentThreadVT` charges through the manager, which commits the thread's new time, what the
    entry charges in the timers. -/
def Timers.perform (timers : Timers) : Operation → Timers
  | .updateThreadLocalTimeSinceLastResumeTo time | .setCurrentThreadVT time =>
    timers.updateThreadLocalTimeSinceLastResumeTo time
  | .updateCpuTimeClock now => timers.updateCpuTimeClock now
  | .resetLocalTime => timers.resetLocalTime

/-! ## The manager and the thread's state -/

def updateCurrentThreadVT (currentTime : Int) : List Operation :=
  [.setCurrentThreadVT currentTime,.updateCpuTimeClock currentTime]

/-- How a suspension goes on: the reading of `updateCurrentThreadVT`, which is only made for a starting
    time 0, and the one after a resume, if the thread was suspended. -/
structure Suspension where
  current : Int
  resumed : Option Int
  deriving DecidableEq

def Suspension.readings (startingTime : Int) (path : Suspension) : List Int :=
  if startingTime = 0 then path.current :: path.resumed.toList else []

/-- `suspendCurrentThread` with options 0. -/
def suspendCurrentThread (startingTime : Int) (path : Suspension) : List Operation :=
  (if startingTime = 0 then updateCurrentThreadVT path.current else [.setCurrentThreadVT startingTime]) ++
    match path.resumed with
    | none => []
    | some after => .resetLocalTime :: if startingTime = 0 then [.updateCpuTimeClock after] else []

/-- Suspensions that leave the thread's time as it is, and waits, until they resume the thread. -/
def blocked (resumed : Bool) : List Operation := if resumed then [.resetLocalTime] else []

/-- All entries of a running thread but those that only lock its key. -/
def onVexEntry (startingTime : Int) : List Operation := [.updateThreadLocalTimeSinceLastResumeTo startingTime]

/-- The exits but `onVexExitWithoutTimeUpdate` and `onVexExitWithRealTimeUpdate`, which leave these timers. -/
def onVexExit (now : Int) : List Operation := [.updateCpuTimeClock now]

namespace VexThreadState

def onWrappedWaitingStart (startingTime exit : Int) : List Operation :=
  onVexEntry startingTime ++ [.setCurrentThreadVT startingTime] ++ onVexExit exit

def onWrappedWaitingEnd (startingTime : Int) (path : Suspension) (exit : Int) : List Operation :=
  [.resetLocalTime] ++ suspendCurrentThread startingTime path ++ onVexExit exit

def onWrappedTimedWaitingStart (startingTime exit : Int) : List Operation :=
  [.setCurrentThreadVT startingTime] ++ onVexExit exit

def onWrappedTimedWaitingEnd : List Operation := blocked true

end VexThreadState

/-! ## The event handlers -/

inductive ParkPath
  | alreadyUnparked (exit : Int)
  | timed (exit : Int)
  | untimed (startingTime exit again : Int)
  deriving DecidableEq

/-- The handlers, each with the readings it takes and whether it is suspended and resumed. -/
inductive Handler
  | onVexMethodEntry (startingTime exit : Int)
  | onVexMethodExit (startingTime exit : Int)
  | onInteractionPoint (startingTime entry : Int) (path : Suspension) (exit : Int)
  | onYield (startingTime entry : Int) (resumed : Bool) (exit : Int)
  | onJoin (startingTime : Int) (resumed : Bool) (exit : Int)
  | beforeCreatingThread (startingTime exit : Int)
  | afterCreatingThread (startingTime exit : Int)
  | onRequestingLock (startingTime : Int) (resumed : Bool) (exit : Int)
  | onReleasingLock (startingTime exit : Int)
  | beforeReleasingLockOfAnyReplacedWaiting (startingTime : Int)
  | onReplacedTimedWaiting (startingTime exit : Int)
  | onReplacedWaiting (startingTime exit : Int)
  | onSleep (startingTime exit : Int)
  | onWrappedWaitingStart (startingTime exit : Int)
  | onWrappedWaitingEnd (startingTime : Int) (path : Suspension) (exit : Int)
  | onWrappedTimedWaitingStart (startingTime entry exit : Int)
  | onWrappedTimedWaitingEnd
  | onWrappedTimedWaitingInterrupt (startingTime exit : Int)
  | onSignallingOnObject (startingTime exit : Int)
  | onBroadcastingOnObject (startingTime exit : Int)
  | onInterrupt (startingTime exit : Int)
  | onPark (startingTime : Int) (path : ParkPath)
  | onParkedTimed
  | onParked (startingTime : Int) (path : Suspension) (exit : Int)
  | onUnpark (startingTime exit : Int)
  | onEnd (startingTime current : Int)
  | getTime (usingVtfScheduler : Bool) (startingTime exit : Int)
  | onSignalledFromScheduler (startingHandlerTime : Int) (resumed : Bool) (exit : Int)
  deriving DecidableEq

/-- The readings of the clock in the order in which the handler takes them. -/
def Handler.readings : Handler → List Int
  | .onInteractionPoint startingTime entry path exit =>
    [startingTime,entry] ++ path.readings startingTime ++ [exit]
  | .onYield startingTime entry _ exit | .onWrappedTimedWaitingStart startingTime entry exit => [startingTime,entry,exit]
  | .onWrappedWaitingEnd startingTime path exit | .onParked startingTime path exit =>
    [startingTime] ++ path.readings startingTime ++ [exit]
  | .onPark startingTime path => startingTime :: match path with
    | .alreadyUnparked exit | .timed exit => [exit]
    | .untimed start exit again => [start,exit,again]
  | .beforeReleasingLockOfAnyReplacedWaiting startingTime => [startingTime]
  | .onWrappedTimedWaitingEnd | .onParkedTimed => []
  | .onVexMethodEntry startingTime exit | .onVexMethodExit startingTime exit | .onJoin startingTime _ exit
  | .beforeCreatingThread startingTime exit | .afterCreatingThread startingTime exit
  | .onRequestingLock startingTime _ exit | .onReleasingLock startingTime exit | .onReplacedTimedWaiting startingTime exit
  | .onReplacedWaiting startingTime exit | .onSleep startingTime exit | .onWrappedWaitingStart startingTime exit
  | .onWrappedTimedWaitingInterrupt startingTime exit | .onSignallingOnObject startingTime exit
  | .onBroadcastingOnObject startingTime exit | .onInterrupt startingTime exit | .onUnpark startingTime exit
  | .onEnd startingTime exit | .getTime _ startingTime exit | .onSignalledFromScheduler startingTime _ exit =>
    [startingTime,exit]

def Handler.operations : Handler → List Operation
  | .onVexMethodEntry startingTime exit | .onVexMethodExit startingTime exit => onVexEntry startingTime ++ onVexExit exit
  | .onInteractionPoint startingTime entry path exit =>
    onVexEntry entry ++ suspendCurrentThread startingTime path ++ onVexExit exit
  -- `locklessUpdateTimeBy` with the yield's duration, which is 0, and the time up to the start
  | .onYield startingTime entry resumed exit =>
    onVexEntry entry ++ [.setCurrentThreadVT startingTime] ++ blocked resumed ++ onVexExit exit
  | .onJoin startingTime resumed exit =>
    onVexEntry startingTime ++ [.setCurrentThreadVT startingTime] ++ blocked resumed ++ onVexExit exit
  | .beforeCreatingThread startingTime exit =>
    onVexEntry startingTime ++ [.setCurrentThreadVT startingTime] ++ onVexExit exit
  | .afterCreatingThread startingTime exit => onVexEntry startingTime ++ onVexExit exit
  | .onRequestingLock startingTime resumed exit => onVexEntry startingTime ++ blocked resumed ++ onVexExit exit
  | .onReleasingLock startingTime exit => onVexEntry startingTime ++ onVexExit exit
  -- `onVexExitWithoutTimeUpdate`
  | .beforeReleasingLockOfAnyReplacedWaiting startingTime => onVexEntry startingTime
  | .onReplacedTimedWaiting startingTime exit | .onReplacedWaiting startingTime exit | .onSleep startingTime exit =>
    onVexEntry startingTime ++ blocked true ++ onVexExit exit
  | .onWrappedWaitingStart startingTime exit => VexThreadState.onWrappedWaitingStart startingTime exit
  | .onWrappedWaitingEnd startingTime path exit => VexThreadState.onWrappedWaitingEnd startingTime path exit
  | .onWrappedTimedWaitingStart startingTime entry exit =>
    onVexEntry entry ++ VexThreadState.onWrappedTimedWaitingStart startingTime exit
  | .onWrappedTimedWaitingEnd => VexThreadState.onWrappedTimedWaitingEnd
  | .onWrappedTimedWaitingInterrupt startingTime exit | .onSignallingOnObject startingTime exit
  | .onBroadcastingOnObject startingTime exit | .onInterrupt startingTime exit | .onUnpark startingTime exit =>
    onVexEntry startingTime ++ onVexExit exit
  | .onPark startingTime path => onVexEntry startingTime ++ match path with
    | .alreadyUnparked exit => onVexExit exit
    | .timed exit => VexThreadState.onWrappedTimedWaitingStart startingTime exit
    | .untimed start exit again => VexThreadState.onWrappedWaitingStart start exit ++ onVexExit again
  | .onParkedTimed => VexThreadState.onWrappedTimedWaitingEnd
  | .onParked startingTime path exit => VexThreadState.onWrappedWaitingEnd startingTime path exit
  | .onEnd startingTime current => onVexEntry startingTime ++ updateCurrentThreadVT current
  | .getTime usingVtfScheduler startingTime exit =>
    (if usingVtfScheduler then [] else [.setCurrentThreadVT startingTime]) ++ onVexEntry startingTime ++ onVexExit exit
  | .onSignalledFromScheduler startingHandlerTime resumed exit =>
    [.setCurrentThreadVT startingHandlerTime] ++ blocked resumed ++ onVexExit exit

/-! ## Runs -/

/-- A thread whose registration ends at the reading. -/
def registered (reading : Int) : Timers := ⟨0,reading,0,reading,[],0⟩

/-- A handler is refused where the clock would go back. -/
def step (timers : Timers) (handler : Handler) : Option Timers :=
  if (timers.clock :: handler.readings).IsChain (· ≤ ·) then
    some { handler.operations.foldl Timers.perform timers with clock := (timers.clock :: handler.readings).getLast (by simp) }
  else none

/-- No point in time lies inside two of the intervals. -/
def ChargedOnce (intervals : List (Int × Int)) : Prop :=
  intervals.Pairwise fun first second => min first.2 second.2 ≤ max first.1 second.1

instance (intervals : List (Int × Int)) : Decidable (ChargedOnce intervals) :=
  inferInstanceAs (Decidable (List.Pairwise _ _))

/-- The time up to which the operation charges. -/
def Operation.charges : Operation → Option Int
  | .updateThreadLocalTimeSinceLastResumeTo time | .setCurrentThreadVT time => some time
  | .updateCpuTimeClock _ | .resetLocalTime => none

/-- The reading to which the operation moves `lastCPUTime`. -/
def Operation.moves : Operation → Option Int
  | .updateCpuTimeClock now => some now
  | .updateThreadLocalTimeSinceLastResumeTo _ | .setCurrentThreadVT _ | .resetLocalTime => none

/-- The end of the last interval that was charged, or where charging starts. -/
def chargedTo (start : Int) (intervals : List (Int × Int)) : Int := (intervals.head?.map Prod.snd).getD start

/-- Of the times up to which the handler charges at most one is after `lastCPUTime`, and none where
    time after it has been charged already. -/
def Single (timers : Timers) (handler : Handler) : Prop :=
  ((handler.operations.filterMap Operation.charges).filter (timers.lastCPUTime < ·)).length ≤
    if timers.lastCPUTime < chargedTo timers.lastCPUTime timers.charged then 0 else 1

instance (timers : Timers) (handler : Handler) : Decidable (Single timers handler) := inferInstanceAs (Decidable (_ ≤ _))

/-- No difference that the handler charges is rounded up. -/
def NotRoundedUp (timers : Timers) (handler : Handler) : Prop :=
  ∀ time ∈ handler.operations.filterMap Operation.charges, timers.lastCPUTime < time →
    throughFloat (time - timers.lastCPUTime) ≤ time - timers.lastCPUTime

instance (timers : Timers) (handler : Handler) : Decidable (NotRoundedUp timers handler) :=
  inferInstanceAs (Decidable (∀ _ ∈ _, _ → _))

/-! ## One operation -/

variable {timers : Timers}

/-- The operations as a machine that refuses none. -/
private def performs (timers : Timers) (operation : Operation) : Option Timers := some (timers.perform operation)

private theorem run_performs (operations : List Operation) (timers : Timers) :
    Runs.run performs timers operations = some (operations.foldl Timers.perform timers) := by
  induction operations generalizing timers with
  | nil => rfl
  | cons operation rest ih => exact ih _

/-- The operation charges nothing that was charged. -/
private def Fresh (timers : Timers) (operation : Operation) : Prop :=
  ∀ time ∈ operation.charges, timers.lastCPUTime < time → chargedTo timers.lastCPUTime timers.charged ≤ timers.lastCPUTime

/-- The intervals are disjoint and end at the last one's end, which starts no later than `lastCPUTime`. -/
private structure Disjoint (timers : Timers) : Prop where
  once : ChargedOnce timers.charged
  ends : ∀ interval ∈ timers.charged, interval.2 ≤ chargedTo timers.lastCPUTime timers.charged
  starts : ∀ interval ∈ timers.charged.head?, interval.1 ≤ timers.lastCPUTime

private theorem perform_charge {operation : Operation} {time : Int} (charges : operation.charges = some time) :
    timers.perform operation =
      if timers.lastCPUTime < time then timers.addLocalTime (timers.lastCPUTime,time) else timers := by
  cases operation with
  | updateThreadLocalTimeSinceLastResumeTo other | setCurrentThreadVT other =>
    cases charges
    simp [Timers.perform,Timers.updateThreadLocalTimeSinceLastResumeTo]
  | updateCpuTimeClock now | resetLocalTime => cases charges

private theorem perform_other {operation : Operation} (charges : operation.charges = none) :
    (timers.perform operation).charged = timers.charged ∧ (timers.perform operation).virtualTime = timers.virtualTime := by
  cases operation with
  | updateThreadLocalTimeSinceLastResumeTo other | setCurrentThreadVT other => cases charges
  | updateCpuTimeClock now | resetLocalTime => exact ⟨rfl,rfl⟩

private theorem perform_last (operation : Operation) :
    (timers.perform operation).lastCPUTime = operation.moves.getD timers.lastCPUTime := by
  cases operation with
  | updateThreadLocalTimeSinceLastResumeTo time | setCurrentThreadVT time =>
    simp only [Timers.perform,Timers.updateThreadLocalTimeSinceLastResumeTo,Operation.moves,Option.getD_none]
    split <;> rfl
  | updateCpuTimeClock now | resetLocalTime => rfl

/-- A charge keeps the intervals disjoint exactly when it is fresh. -/
private theorem addLocalTime_disjoint {time : Int} (inv : Disjoint timers) (after : timers.lastCPUTime < time) :
    ChargedOnce ((timers.lastCPUTime,time) :: timers.charged) ↔
      chargedTo timers.lastCPUTime timers.charged ≤ timers.lastCPUTime := by
  rw [ChargedOnce,List.pairwise_cons]
  constructor
  · rintro ⟨apart,-⟩
    cases shape : timers.charged with
    | nil => simp [chargedTo]
    | cons interval rest =>
      have overlap := apart interval (by simp [shape])
      have starts := inv.starts interval (by simp [shape])
      simp only [chargedTo,List.head?_cons,Option.map_some,Option.getD_some]
      grind
  · intro fresh
    refine ⟨fun interval member => ?_,inv.once⟩
    have := inv.ends interval member
    grind

private theorem perform_disjoint {operation : Operation} (inv : Disjoint timers) (fresh : Fresh timers operation)
    (forward : ∀ now ∈ operation.moves, timers.lastCPUTime ≤ now) : Disjoint (timers.perform operation) := by
  cases charges : operation.charges with
  | none =>
    have last := @perform_last timers operation
    have later : timers.lastCPUTime ≤ (timers.perform operation).lastCPUTime := by
      rw [last]
      cases moves : operation.moves with
      | none => simp
      | some now => simpa using forward now moves
    have same := (@perform_other timers operation charges).1
    refine ⟨by rw [same]; exact inv.once,fun interval member => ?_,fun interval member => ?_⟩
    · rw [same] at member ⊢
      obtain ⟨head,rest,shape⟩ := List.exists_cons_of_ne_nil (List.ne_nil_of_mem member)
      simpa [shape,chargedTo] using inv.ends interval member
    · rw [same] at member
      exact (inv.starts interval member).trans later
  | some time =>
    rw [perform_charge charges]
    split
    · next after =>
      refine ⟨(addLocalTime_disjoint inv after).mpr (fresh time charges after),fun interval member => ?_,?_⟩
      · rcases List.mem_cons.mp member with rfl | old
        · simp [Timers.addLocalTime,chargedTo]
        · have ends := inv.ends interval old
          have := fresh time charges after
          simp only [Timers.addLocalTime,chargedTo,List.head?_cons,Option.map_some,Option.getD_some]
          omega
      · simp [Timers.addLocalTime]
    · exact inv

/-! ## The operations of a handler -/

/-- The clock only goes forward. -/
private def Forward (timers : Timers) (operation : Operation) : Prop :=
  ∀ now ∈ operation.moves, timers.lastCPUTime ≤ now

private theorem perform_charged_suffix (operation : Operation) : timers.charged <:+ (timers.perform operation).charged := by
  cases charges : operation.charges with
  | none => rw [(perform_other charges).1]
  | some time =>
    rw [perform_charge charges]
    split
    · exact List.suffix_cons _ _
    · exact List.suffix_rfl

private theorem run_charged_suffix (operations : List Operation) (timers : Timers) :
    timers.charged <:+ (operations.foldl Timers.perform timers).charged := by
  induction operations generalizing timers with
  | nil => exact List.suffix_rfl
  | cons operation rest ih => exact (perform_charged_suffix operation).trans (ih _)

private theorem run_disjoint {operations : List Operation} (inv : Disjoint timers)
    (forward : Runs.Meets performs Forward timers operations) (fresh : Runs.Meets performs Fresh timers operations) :
    Disjoint (operations.foldl Timers.perform timers) := by
  refine Runs.invariant_of_meets (fun state operation next inv both stepped => ?_) inv (Runs.meets_and forward fresh)
    (run_performs operations timers)
  cases stepped
  exact perform_disjoint inv both.2 both.1

/-- The intervals stay disjoint exactly when every operation charges only what is fresh. -/
private theorem run_once_iff {operations : List Operation} (inv : Disjoint timers)
    (forward : Runs.Meets performs Forward timers operations) :
    ChargedOnce (operations.foldl Timers.perform timers).charged ↔ Runs.Meets performs Fresh timers operations := by
  refine ⟨fun once => ?_,fun fresh => (run_disjoint inv forward fresh).once⟩
  induction operations generalizing timers with
  | nil => trivial
  | cons operation rest ih =>
    have fresh : Fresh timers operation := by
      intro time charges after
      have early := List.Pairwise.sublist (run_charged_suffix rest (timers.perform operation)).sublist once
      rw [perform_charge charges,if_pos after] at early
      exact (addLocalTime_disjoint inv after).mp early
    refine ⟨fresh,fun next stepped => ?_⟩
    cases stepped
    exact ih (perform_disjoint inv fresh forward.1) (forward.2 _ rfl) once

/-- Nothing is charged after a move of the clock. -/
private def MovesLast : List Operation → Prop
  | [] => True
  | operation :: rest => (operation.moves ≠ none → rest.filterMap Operation.charges = []) ∧ MovesLast rest

private theorem fresh_of_no_charges {operations : List Operation} (none : operations.filterMap Operation.charges = []) :
    Runs.Meets performs Fresh timers operations := by
  induction operations generalizing timers with
  | nil => trivial
  | cons operation rest ih =>
    rw [List.filterMap_eq_nil_iff] at none
    refine ⟨fun time charges => ?_,fun next stepped => ?_⟩
    · rw [none operation (by simp)] at charges
      cases charges
    · cases stepped
      exact ih (List.filterMap_eq_nil_iff.mpr fun other member => none other (by simp [member]))

/-- All charges come before the clock moves, so at most one of them can be fresh. -/
private theorem fresh_iff_single {operations : List Operation} (movesLast : MovesLast operations) :
    Runs.Meets performs Fresh timers operations ↔
      ((operations.filterMap Operation.charges).filter (timers.lastCPUTime < ·)).length ≤
        if timers.lastCPUTime < chargedTo timers.lastCPUTime timers.charged then 0 else 1 := by
  induction operations generalizing timers with
  | nil => simp [Runs.Meets]
  | cons operation rest ih =>
    have unfolded : Runs.Meets performs Fresh timers (operation :: rest) ↔
        Fresh timers operation ∧ Runs.Meets performs Fresh (timers.perform operation) rest :=
      and_congr_right fun _ => ⟨fun later => later _ rfl,fun later next stepped => by cases stepped; exact later⟩
    rw [unfolded]
    cases charges : operation.charges with
    | none =>
      have fresh : Fresh timers operation := fun time found => by rw [charges] at found; cases found
      have last := @perform_last timers operation
      have same := (@perform_other timers operation charges).1
      rw [List.filterMap_cons_none charges]
      cases moves : operation.moves with
      | none =>
        rw [moves] at last
        have := @ih (timers.perform operation) movesLast.2
        rw [last,same] at this
        simpa [fresh] using this
      | some now =>
        have nothing := movesLast.1 (by simp [moves])
        simp [nothing,fresh,fresh_of_no_charges nothing]
    | some time =>
      rw [List.filterMap_cons_some charges,perform_charge charges]
      by_cases after : timers.lastCPUTime < time
      · have full : timers.lastCPUTime < chargedTo timers.lastCPUTime ((timers.lastCPUTime,time) :: timers.charged) := by
          simpa [chargedTo] using after
        have charged : Runs.Meets performs Fresh (timers.addLocalTime (timers.lastCPUTime,time)) rest ↔
            ((rest.filterMap Operation.charges).filter (timers.lastCPUTime < ·)).length ≤ 0 := by
          have found := @ih (timers.addLocalTime (timers.lastCPUTime,time)) movesLast.2
          rwa [if_pos (by exact full)] at found
        have fresh : Fresh timers operation ↔ chargedTo timers.lastCPUTime timers.charged ≤ timers.lastCPUTime := by
          simp [Fresh,charges,after]
        rw [if_pos after,fresh,charged,List.filter_cons_of_pos (by simpa using after),List.length_cons]
        split <;> omega
      · have fresh : Fresh timers operation := fun other found later => by
          rw [charges,Option.mem_some_iff] at found
          exact absurd (found ▸ later) after
        rw [if_neg after,List.filter_cons_of_neg (by simpa using after),ih movesLast.2]
        simp [fresh]

/-- What holds of every time the handler charges holds while it charges it. -/
private theorem meets_of_charges {holds : Int → Int → Prop} {operations : List Operation} (movesLast : MovesLast operations)
    (each : ∀ time ∈ operations.filterMap Operation.charges, holds timers.lastCPUTime time) :
    Runs.Meets performs (fun timers operation => ∀ time ∈ operation.charges, holds timers.lastCPUTime time) timers
      operations := by
  induction operations generalizing timers with
  | nil => trivial
  | cons operation rest ih =>
    refine ⟨fun time charges => each time (List.mem_filterMap.mpr ⟨operation,by simp,charges⟩),fun next stepped => ?_⟩
    cases stepped
    refine ih movesLast.2 fun time member => ?_
    cases moves : operation.moves with
    | none =>
      rw [perform_last,moves]
      exact each time (List.mem_filterMap.mpr (by
        obtain ⟨other,found,charges⟩ := List.mem_filterMap.mp member
        exact ⟨other,by simp [found],charges⟩))
    | some now =>
      rw [movesLast.1 (by simp [moves])] at member
      cases member

private theorem forward_of_sorted {operations : List Operation}
    (sorted : (timers.lastCPUTime :: operations.filterMap Operation.moves).Pairwise (· ≤ ·)) :
    Runs.Meets performs Forward timers operations := by
  induction operations generalizing timers with
  | nil => trivial
  | cons operation rest ih =>
    have last := @perform_last timers operation
    cases moves : operation.moves with
    | none =>
      rw [List.filterMap_cons_none moves] at sorted
      refine ⟨fun now found => ?_,fun next stepped => ?_⟩
      · rw [moves] at found
        cases found
      cases stepped
      exact ih (by rw [last,moves]; exact sorted)
    | some now =>
      rw [List.filterMap_cons_some moves] at sorted
      refine ⟨fun other found => ?_,fun next stepped => ?_⟩
      · obtain rfl : now = other := by simpa [moves] using found
        exact List.rel_of_pairwise_cons sorted (by simp)
      · cases stepped
        exact ih (by rw [last,moves]; exact (List.pairwise_cons.mp sorted).2)

private theorem run_last (operations : List Operation) (timers : Timers) :
    (operations.foldl Timers.perform timers).lastCPUTime ∈ timers.lastCPUTime :: operations.filterMap Operation.moves := by
  induction operations generalizing timers with
  | nil => simp
  | cons operation rest ih =>
    have found := ih (timers.perform operation)
    rw [perform_last] at found
    cases moves : operation.moves with
    | none => simpa [moves,List.filterMap_cons_none moves] using found
    | some now =>
      rw [List.filterMap_cons_some moves]
      exact List.mem_cons_of_mem _ (by simpa [moves] using found)

private theorem run_chargedTo (start : Int) (operations : List Operation) (timers : Timers) :
    chargedTo start (operations.foldl Timers.perform timers).charged ∈
      chargedTo start timers.charged :: operations.filterMap Operation.charges := by
  induction operations generalizing timers with
  | nil => simp
  | cons operation rest ih =>
    have found := ih (timers.perform operation)
    cases charges : operation.charges with
    | none =>
      rw [(perform_other charges).1] at found
      rwa [List.filterMap_cons_none charges]
    | some time =>
      rw [List.filterMap_cons_some charges,List.foldl_cons]
      rw [perform_charge charges] at found ⊢
      by_cases after : timers.lastCPUTime < time
      · rw [if_pos after] at found ⊢
        exact List.mem_cons_of_mem _ found
      · rw [if_neg after] at found ⊢
        rcases List.mem_cons.mp found with same | later
        · exact List.mem_cons.mpr (.inl same)
        · exact List.mem_cons_of_mem _ (List.mem_cons_of_mem _ later)

/-! ## The handlers -/

/-- What a handler does to the clocks: its moves come last and are, in order, readings of its own, as
    are the times up to which it charges. -/
private def InShape (handler : Handler) : Prop :=
  MovesLast handler.operations ∧ (handler.operations.filterMap Operation.moves).Sublist handler.readings ∧
    handler.operations.filterMap Operation.charges ⊆ handler.readings

private theorem handler_inShape (handler : Handler) : InShape handler := by
  cases handler with
  | onPark startingTime path =>
    cases path <;> simp [InShape,Handler.operations,Handler.readings,MovesLast,VexThreadState.onWrappedTimedWaitingStart,
      VexThreadState.onWrappedWaitingStart,onVexEntry,onVexExit,List.filterMap_cons,Operation.moves,Operation.charges]
  | onInteractionPoint startingTime _ path _ | onWrappedWaitingEnd startingTime path _ | onParked startingTime path _ =>
    obtain ⟨current,resumed⟩ := path
    cases resumed <;> by_cases zero : startingTime = 0 <;>
      simp [InShape,Handler.operations,Handler.readings,MovesLast,VexThreadState.onWrappedWaitingEnd,suspendCurrentThread,
        updateCurrentThreadVT,onVexEntry,onVexExit,List.filterMap_cons,Operation.moves,Operation.charges,
        Suspension.readings,zero]
  | onYield _ _ resumed _ | onJoin _ resumed _ | onRequestingLock _ resumed _ | onSignalledFromScheduler _ resumed _
  | getTime resumed _ _ =>
    cases resumed <;> simp [InShape,Handler.operations,Handler.readings,MovesLast,blocked,onVexEntry,onVexExit,
      List.filterMap_cons,Operation.moves,Operation.charges]
  | _ =>
    simp [InShape,Handler.operations,Handler.readings,MovesLast,VexThreadState.onWrappedTimedWaitingStart,
      updateCurrentThreadVT,VexThreadState.onWrappedWaitingStart,VexThreadState.onWrappedTimedWaitingEnd,blocked,
      onVexEntry,onVexExit,List.filterMap_cons,Operation.moves,Operation.charges]

/-- The clock is past every reading that was taken. -/
private structure Reached (start : Int) (timers : Timers) : Prop where
  disjoint : Disjoint timers
  last : timers.lastCPUTime ≤ timers.clock
  charged : chargedTo start timers.charged ≤ timers.clock

variable {next : Timers} {handler : Handler} {start : Int}

/-- The readings of a handler that is executed, and what it leaves. -/
private theorem step_cases (stepped : step timers handler = some next) :
    (timers.clock :: handler.readings).Pairwise (· ≤ ·) ∧
    (∀ reading ∈ timers.clock :: handler.readings, reading ≤ next.clock) ∧
    next = { handler.operations.foldl Timers.perform timers with clock := next.clock } := by
  simp only [step,Option.ite_none_right_eq_some,Option.some.injEq] at stepped
  obtain ⟨chain,rfl⟩ := stepped
  have sorted := List.isChain_iff_pairwise.mp chain
  refine ⟨sorted,fun reading member => ?_,rfl⟩
  exact sorted.rel_getLast member

private theorem step_forward (last : timers.lastCPUTime ≤ timers.clock) (stepped : step timers handler = some next) :
    Runs.Meets performs Forward timers handler.operations := by
  obtain ⟨sorted,-,-⟩ := step_cases stepped
  obtain ⟨-,moves,-⟩ := handler_inShape handler
  obtain ⟨after,within⟩ := List.pairwise_cons.mp sorted
  refine forward_of_sorted (List.pairwise_cons.mpr ⟨fun now member => ?_,within.sublist moves⟩)
  exact last.trans (after now (moves.subset member))

/-- A handler keeps the intervals disjoint exactly when its charge is single. -/
private theorem step_once (inv : Reached start timers) (stepped : step timers handler = some next) :
    (ChargedOnce next.charged ↔ Single timers handler) ∧ (Single timers handler → Reached start next) := by
  have forward := step_forward inv.last stepped
  have shape := handler_inShape handler
  obtain ⟨sorted,past,left⟩ := step_cases stepped
  have fresh : Runs.Meets performs Fresh timers handler.operations ↔ Single timers handler := fresh_iff_single shape.1
  rw [left]
  refine ⟨(run_once_iff inv.disjoint forward).trans fresh,fun single => ⟨?_,?_,?_⟩⟩
  · obtain ⟨once,ends,starts⟩ := run_disjoint inv.disjoint forward (fresh.mpr single)
    exact ⟨once,ends,starts⟩
  · rcases List.mem_cons.mp (run_last handler.operations timers) with same | moved
    · exact same.le.trans (inv.last.trans (past _ (by simp)))
    · exact past _ (List.mem_cons_of_mem _ (shape.2.1.subset moved))
  · rcases List.mem_cons.mp (run_chargedTo start handler.operations timers) with same | charged
    · exact same.le.trans (inv.charged.trans (past _ (by simp)))
    · exact past _ (List.mem_cons_of_mem _ (shape.2.2 charged))

private theorem reached_registered (start : Int) : Reached start (registered start) where
  disjoint := ⟨List.Pairwise.nil,by simp [registered],by simp [registered]⟩
  last := le_rfl
  charged := le_rfl

private theorem step_suffix (stepped : step timers handler = some next) : timers.charged <:+ next.charged := by
  rw [(step_cases stepped).2.2]
  exact run_charged_suffix handler.operations timers

private theorem run_suffix {handlers : List Handler} (executed : Runs.run step timers handlers = some next) :
    timers.charged <:+ next.charged := by
  induction handlers generalizing timers with
  | nil =>
    cases executed
    exact List.suffix_rfl
  | cons handler rest ih =>
    obtain ⟨middle,stepped,remaining⟩ := (Runs.run_cons timers handler rest next).mp executed
    exact (step_suffix stepped).trans (ih remaining)

/-- A run keeps the intervals disjoint exactly when the charge of every handler is single. -/
private theorem run_once {handlers : List Handler} (inv : Reached start timers)
    (executed : Runs.run step timers handlers = some next) :
    ChargedOnce next.charged ↔ Runs.Meets step Single timers handlers := by
  induction handlers generalizing timers with
  | nil =>
    cases executed
    exact ⟨fun _ => trivial,fun _ => inv.disjoint.once⟩
  | cons handler rest ih =>
    obtain ⟨middle,stepped,remaining⟩ := (Runs.run_cons timers handler rest next).mp executed
    have handled := step_once inv stepped
    constructor
    · intro once
      have single := handled.1.mp (List.Pairwise.sublist (run_suffix remaining).sublist once)
      refine ⟨single,fun other same => ?_⟩
      obtain rfl : middle = other := Option.some.inj (stepped.symm.trans same)
      exact (ih (handled.2 single) remaining).mp once
    · rintro ⟨single,later⟩
      exact (ih (handled.2 single) remaining).mpr (later middle stepped)

/-! ## The charged time -/

/-- The virtual time that was added for the intervals. -/
def total (intervals : List (Int × Int)) : Int := (intervals.map fun interval => throughFloat (interval.2 - interval.1)).sum

/-- The virtual time is that of all intervals, the local time that of those since the last resume. -/
private def Accounted (timers : Timers) : Prop :=
  timers.virtualTime = total timers.charged ∧ timers.localTimeSinceLastResume = total (timers.charged.take timers.recent)

private theorem perform_accounted (operation : Operation) (accounted : Accounted timers) :
    Accounted (timers.perform operation) := by
  cases charges : operation.charges with
  | some time =>
    rw [perform_charge charges]
    split
    · simp only [Accounted,Timers.addLocalTime,List.take_succ_cons,total,List.map_cons,List.sum_cons]
      exact ⟨by rw [accounted.1,total,add_comm],by rw [accounted.2,total,add_comm]⟩
    · exact accounted
  | none =>
    cases operation with
    | updateThreadLocalTimeSinceLastResumeTo time | setCurrentThreadVT time => cases charges
    | updateCpuTimeClock now => exact accounted
    | resetLocalTime => exact ⟨accounted.1,rfl⟩

private theorem step_accounted (accounted : Accounted timers) (stepped : step timers handler = some next) :
    Accounted next := by
  have kept : Accounted (handler.operations.foldl Timers.perform timers) := Runs.invariant
    (fun state operation next inv stepped => by cases stepped; exact perform_accounted operation inv) accounted
    (run_performs handler.operations timers)
  rw [(step_cases stepped).2.2]
  exact kept

/-- The virtual time is within the time charged, from where charging started to the last interval's end. -/
private structure Bounded (start : Int) (timers : Timers) : Prop where
  started : start ≤ timers.lastCPUTime
  within : timers.virtualTime ≤ chargedTo start timers.charged - start

/-- The operation rounds no difference up. -/
private def Down (last time : Int) : Prop := last < time → throughFloat (time - last) ≤ time - last

private theorem perform_bounded {operation : Operation} (bounded : Bounded start timers) (fresh : Fresh timers operation)
    (down : ∀ time ∈ operation.charges, Down timers.lastCPUTime time) (forward : Forward timers operation) :
    Bounded start (timers.perform operation) := by
  cases charges : operation.charges with
  | some time =>
    rw [perform_charge charges]
    split
    · next after =>
      have notUp := down time charges after
      have before : chargedTo start timers.charged ≤ timers.lastCPUTime := by
        have reached := fresh time charges after
        cases shape : timers.charged with
        | nil => simpa [chargedTo] using bounded.started
        | cons interval rest => simpa [shape,chargedTo] using reached
      have within := bounded.within
      refine ⟨bounded.started,?_⟩
      simp only [Timers.addLocalTime,chargedTo,List.head?_cons,Option.map_some,Option.getD_some]
      omega
    · exact bounded
  | none =>
    obtain ⟨sameCharged,sameTime⟩ := @perform_other timers operation charges
    refine ⟨?_,by rw [sameCharged,sameTime]; exact bounded.within⟩
    rw [perform_last]
    cases moves : operation.moves with
    | none => exact bounded.started
    | some now => exact bounded.started.trans (forward now moves)

private theorem step_bounded (inv : Reached start timers) (bounded : Bounded start timers) (single : Single timers handler)
    (down : NotRoundedUp timers handler) (stepped : step timers handler = some next) : Bounded start next := by
  have movesLast := (handler_inShape handler).1
  have forward := step_forward inv.last stepped
  have fresh : Runs.Meets performs Fresh timers handler.operations := (fresh_iff_single movesLast).mpr single
  have kept : Bounded start (handler.operations.foldl Timers.perform timers) := by
    refine Runs.invariant_of_meets (fun state operation next inv conditions stepped => ?_) bounded
      (Runs.meets_and forward (Runs.meets_and fresh (@meets_of_charges timers Down _ movesLast down)))
      (run_performs handler.operations timers)
    cases stepped
    exact perform_bounded inv conditions.2.1 conditions.2.2 conditions.1
  rw [(step_cases stepped).2.2]
  exact ⟨kept.started,kept.within⟩

/-- For every run of a thread's handlers from its registration on: no CPU time is charged twice exactly
    when the charge of each handler is single; the virtual and the local time are what was charged, in
    all and since the last resume; and where charges are single and no difference is rounded up, the
    virtual time does not exceed the CPU time since the registration. -/
theorem charged_once_iff (start : Int) (handlers : List Handler) (timers : Timers)
    (executed : Runs.run step (registered start) handlers = some timers) :
    (ChargedOnce timers.charged ↔ Runs.Meets step Single (registered start) handlers) ∧
    timers.virtualTime = total timers.charged ∧
    timers.localTimeSinceLastResume = total (timers.charged.take timers.recent) ∧
    (Runs.Meets step Single (registered start) handlers → Runs.Meets step NotRoundedUp (registered start) handlers →
      timers.virtualTime ≤ timers.clock - start) := by
  have accounted : Accounted timers := Runs.invariant (fun _ _ _ inv stepped => step_accounted inv stepped) ⟨rfl,rfl⟩ executed
  refine ⟨run_once (reached_registered start) executed,accounted.1,accounted.2,fun single down => ?_⟩
  have kept : Reached start timers ∧ Bounded start timers := by
    have begins : Bounded start (registered start) := ⟨le_rfl,by simp [registered,chargedTo]⟩
    refine @Runs.invariant_of_meets _ _ step _ (fun timers => Reached start timers ∧ Bounded start timers) ?_ _ _ _
      ⟨reached_registered start,begins⟩ (Runs.meets_and single down) executed
    intro state handler next inv conditions stepped
    exact ⟨(step_once inv.1 stepped).2 conditions.1,step_bounded inv.1 inv.2 conditions.1 conditions.2 stepped⟩
  have within := kept.2.within
  have reached := kept.1.charged
  omega

/-- A lock, a yield at once after it, and a park with a permit: the yield charges twice up to readings
    that are not after `lastCPUTime`, so nothing is charged twice. -/
theorem lock_yield_park_charged_once : ∃ timers, Runs.run step (registered 10)
    [.onRequestingLock 25 true 31,.onYield 31 31 false 32,.onPark 40 (.alreadyUnparked 41)] = some timers ∧
    ChargedOnce timers.charged ∧ timers.virtualTime = 23 ∧ timers.virtualTime ≤ timers.clock - 10 := by
  obtain ⟨timers,executed⟩ : ∃ timers, Runs.run step (registered 10)
    [.onRequestingLock 25 true 31,.onYield 31 31 false 32,.onPark 40 (.alreadyUnparked 41)] = some timers := ⟨_,rfl⟩
  obtain ⟨once,-,-,within⟩ := charged_once_iff 10 _ timers executed
  refine ⟨timers,executed,once.mpr (by decide),?_,within (by decide) (by decide)⟩
  cases executed
  decide

/-- A join charges the 5 ns since the registration in its entry and again in the manager. -/
theorem join_charges_twice : ¬ ∀ start handlers timers, Runs.run step (registered start) handlers = some timers →
    timers.virtualTime ≤ timers.clock - start := by
  intro claimed
  have exceeds := claimed 10 [.onJoin 15 false 16] _ rfl
  revert exceeds
  decide

end Vexjine.CpuTime
