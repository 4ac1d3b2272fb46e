import Vexjine.Runs
import Vexjine.VirtualTimeline
import Vexjine.VexThreadState

/-!
# Leaps forward in virtual time

The decision of `ThreadManager::isValidToLeapInVirtualTimeTo`: the scan of the
registered threads, the sum of their times remembered since an earlier refusal,
and the sequences of such decisions.
-/

namespace Vexjine.Leaping
open Vexjine.VirtualTimeline (longLong)
open Vexjine.Runs
set_option linter.unusedSimpArgs false

/-- A registered thread with its clocks and with what its I/O handler and the system say of it. -/
structure Registered extends VexThreadState where
  estimatedRealTime : Int
  localTime : Int
  ioCPUTime : Int
  executingPossiblyBlockingIo : Bool
  threadSystemStateBlocked : Bool

namespace Registered

def isDefinitelyActiveInIo (thread : Registered) : Bool :=
  thread.isInAnyIo && !thread.executingPossiblyBlockingIo

def isDefinitelyActive (thread : Registered) : Bool :=
  thread.isDefinitelyActiveInIo || thread.isRegistering || thread.isSuspended || thread.isRunning ||
    thread.awaken || thread.awakeningFromJoin || thread.isSomewhereInVex

end Registered

/-- The index is in iteration order; every loop skips its NULL entries, which are left out. -/
structure ThreadRegistry where
  threadStateIndex : List Registered
  threadsBeingSpawned : Int
  forwardLeapsAllowed : Bool

inductive Aliveness
  | atLeastOneAlive | maybeOneAlive | noneAlive
  deriving DecidableEq

namespace ThreadRegistry
variable (registry : ThreadRegistry) (state : Registered)

def existsThreadThatIsSuspendedOnHigherErtThanTimeoutAndMightUnblockNativeWaitingThread : Bool :=
  registry.threadStateIndex.any fun thread =>
    thread.isSuspended && decide (thread.estimatedRealTime ≥ state.estimatedRealTime)

def areAllNativeWaitingThreadsBlockedAccordingToSystemState : Bool :=
  registry.forwardLeapsAllowed && registry.threadStateIndex.all fun thread =>
    !(decide (thread.estimatedRealTime < state.estimatedRealTime) &&
      (thread.isNativeWaiting || thread.isInAnyIo)) || thread.threadSystemStateBlocked

def getSummedErtOfAllThreads : Int :=
  registry.threadStateIndex.foldl (fun totalErt thread => longLong (totalErt + longLong
    (thread.estimatedRealTime + thread.localTime + thread.currentState.number + thread.ioCPUTime))) 0

/-- The body of the scan: where it returns, and what. -/
def aliveReturn (remainingTime : Int) (thread : Registered) : Option Aliveness :=
  if thread.estimatedRealTime < state.estimatedRealTime then
    if thread.isDefinitelyActive then some .atLeastOneAlive
    else if thread.isNativeWaiting then
      if registry.existsThreadThatIsSuspendedOnHigherErtThanTimeoutAndMightUnblockNativeWaitingThread state then
        some .maybeOneAlive
      else some .atLeastOneAlive
    else if longLong (state.estimatedRealTime - thread.estimatedRealTime) < longLong (remainingTime * 2) then
      some .maybeOneAlive
    else none
  else none

/-- The loop returns at the first thread whose body does. -/
def areAnyOtherThreadsActiveInFormerTime (remainingTime : Int) : Aliveness :=
  if registry.threadsBeingSpawned > 0 then .atLeastOneAlive
  else if !registry.forwardLeapsAllowed then .atLeastOneAlive
  else (registry.threadStateIndex.findSome? (registry.aliveReturn state remainingTime)).getD .noneAlive

end ThreadRegistry

/-- What the manager remembers from one decision to the next. -/
structure Memory where
  lastTotalThreadERT : Int := 0
  lastGlobalVirtualTime : Int := 0
  deriving DecidableEq

/-- What a decision reads: the thread that wants to leap, the registry, the notifications not yet
    delivered and the two clocks. -/
structure Call where
  state : Registered
  registry : ThreadRegistry
  pendingNotifications : UInt32
  globalTime : Int
  realTime : Int

/-- `getHowFarAheadInVirtualTimeTheThreadIs`. -/
def Call.remainingTime (call : Call) : Int := longLong (call.state.estimatedRealTime - call.globalTime)

def isValidToLeapInVirtualTimeTo (memory : Memory) (call : Call) : Bool × Memory :=
  if call.state.waitingInRealTime then (false,memory)
  else if call.remainingTime < 0 then (true,memory)
  else
    let aliveThreads := call.registry.areAnyOtherThreadsActiveInFormerTime call.state call.remainingTime
    if call.pendingNotifications = 0 ∧ aliveThreads ≠ .atLeastOneAlive then
      if aliveThreads = .maybeOneAlive then
        if memory.lastTotalThreadERT = 0 then
          (false,{ lastTotalThreadERT := call.registry.getSummedErtOfAllThreads
                   lastGlobalVirtualTime := call.realTime })
        else if longLong (call.realTime - memory.lastGlobalVirtualTime) < 200000000 then (false,memory)
        else if call.registry.getSummedErtOfAllThreads = memory.lastTotalThreadERT ∧
            call.registry.areAllNativeWaitingThreadsBlockedAccordingToSystemState call.state = true then
          (true,{ memory with lastTotalThreadERT := 0 })
        else (false,{ memory with lastTotalThreadERT := 0 })
      else (true,memory)
    else (false,{ memory with lastTotalThreadERT := 0 })

/-- A decision, as a step of the manager's memory. -/
def step (memory : Memory) (call : Call) : Option Memory :=
  some (isValidToLeapInVirtualTimeTo memory call).2

/-! ## Safe leaps -/

/-- A permitted leap with non-negative remaining time leaves no active thread behind, no thread
    unregistered, no notification pending, and happens only while leaps are allowed. -/
structure LeapIsSafe (call : Call) : Prop where
  noneActive : ∀ thread ∈ call.registry.threadStateIndex,
    thread.estimatedRealTime < call.state.estimatedRealTime → thread.isDefinitelyActive = false
  noneSpawned : ¬ call.registry.threadsBeingSpawned > 0
  noneNotified : call.pendingNotifications = 0
  allowed : call.registry.forwardLeapsAllowed = true

def Safe (memory : Memory) (call : Call) : Prop :=
  (isValidToLeapInVirtualTimeTo memory call).1 = true → 0 ≤ call.remainingTime → LeapIsSafe call

/-! ## What makes a decision unsafe -/

/-- The tests that come before the scan let the call through. -/
structure Eligible (call : Call) : Prop where
  inVirtualTime : call.state.waitingInRealTime = false
  ahead : 0 ≤ call.remainingTime
  noneNotified : call.pendingNotifications = 0
  noneSpawned : ¬ call.registry.threadsBeingSpawned > 0
  allowed : call.registry.forwardLeapsAllowed = true

/-- The thread started to wait at most twice the remaining time before the leap's target. -/
def Recent (call : Call) (thread : Registered) : Prop :=
  longLong (call.state.estimatedRealTime - thread.estimatedRealTime) < longLong (call.remainingTime * 2)

/-- The scan walks past the thread. -/
def Neutral (call : Call) (thread : Registered) : Prop :=
  thread.estimatedRealTime < call.state.estimatedRealTime →
    thread.isDefinitelyActive = false ∧ thread.isNativeWaiting = false ∧ ¬ Recent call thread

/-- An inactive former thread that may make progress: one that waits natively while a suspended
    thread may unblock it, or one that started to wait recently. -/
structure Doubtful (call : Call) (thread : Registered) : Prop where
  former : thread.estimatedRealTime < call.state.estimatedRealTime
  inactive : thread.isDefinitelyActive = false
  doubt : if thread.isNativeWaiting then
      call.registry.existsThreadThatIsSuspendedOnHigherErtThanTimeoutAndMightUnblockNativeWaitingThread
        call.state = true
    else Recent call thread

/-- The first thread that is not neutral is doubtful. -/
structure StopsAt (call : Call) (before : List Registered) (doubtful : Registered)
    (after : List Registered) : Prop where
  index : call.registry.threadStateIndex = before ++ doubtful :: after
  neutral : ∀ thread ∈ before, Neutral call thread
  doubt : Doubtful call doubtful

/-- The scan stops at a doubtful thread in front of an active former one. -/
def MasksActive (call : Call) : Prop :=
  ∃ before doubtful after, StopsAt call before doubtful after ∧
    ∃ thread ∈ after, thread.estimatedRealTime < call.state.estimatedRealTime ∧ thread.isDefinitelyActive = true

/-- No time was added for 200 ms since a remembered refusal, and the system says that the former
    threads in native code or I/O are blocked. -/
structure Stagnant (memory : Memory) (call : Call) : Prop where
  remembered : memory.lastTotalThreadERT ≠ 0
  longAgo : 200000000 ≤ longLong (call.realTime - memory.lastGlobalVirtualTime)
  unchanged : call.registry.getSummedErtOfAllThreads = memory.lastTotalThreadERT
  blocked : call.registry.areAllNativeWaitingThreadsBlockedAccordingToSystemState call.state = true

def Unsafe (memory : Memory) (call : Call) : Prop :=
  Eligible call ∧ MasksActive call ∧ Stagnant memory call

/-! ## The scan -/

private theorem aliveReturn_none_iff (call : Call) (thread : Registered) :
    call.registry.aliveReturn call.state call.remainingTime thread = none ↔ Neutral call thread := by
  unfold ThreadRegistry.aliveReturn Neutral Recent
  by_cases former : thread.estimatedRealTime < call.state.estimatedRealTime
  · simp only [if_pos former,former,forall_const]
    split_ifs <;> simp_all
  · simp [former]

private theorem aliveReturn_maybe_iff (call : Call) (thread : Registered) :
    call.registry.aliveReturn call.state call.remainingTime thread = some .maybeOneAlive ↔
      Doubtful call thread := by
  unfold ThreadRegistry.aliveReturn
  constructor
  · intro returned
    by_cases former : thread.estimatedRealTime < call.state.estimatedRealTime
    · rw [if_pos former] at returned
      by_cases inactive : thread.isDefinitelyActive = true
      · simp [inactive] at returned
      · rw [if_neg inactive] at returned
        refine ⟨former,by simpa using inactive,?_⟩
        split_ifs at returned ⊢ <;> simp_all [Recent]
    · simp [former] at returned
  · rintro ⟨former,inactive,doubt⟩
    rw [if_pos former,if_neg (by simp [inactive])]
    split_ifs at doubt ⊢ <;> simp_all [Recent]

private theorem aliveReturn_ne_noneAlive (call : Call) (thread : Registered) :
    call.registry.aliveReturn call.state call.remainingTime thread ≠ some .noneAlive := by
  unfold ThreadRegistry.aliveReturn
  split_ifs <;> simp

/-- Before the scan only announced threads and forbidden leaps are tested. -/
private theorem scan_eq {call : Call} (noneSpawned : ¬ call.registry.threadsBeingSpawned > 0)
    (allowed : call.registry.forwardLeapsAllowed = true) :
    call.registry.areAnyOtherThreadsActiveInFormerTime call.state call.remainingTime =
      (call.registry.threadStateIndex.findSome?
        (call.registry.aliveReturn call.state call.remainingTime)).getD .noneAlive := by
  unfold ThreadRegistry.areAnyOtherThreadsActiveInFormerTime
  rw [if_neg noneSpawned,if_neg (by simp [allowed])]

private theorem scan_reached {call : Call}
    (scanned : call.registry.areAnyOtherThreadsActiveInFormerTime call.state call.remainingTime ≠ .atLeastOneAlive) :
    ¬ call.registry.threadsBeingSpawned > 0 ∧ call.registry.forwardLeapsAllowed = true := by
  unfold ThreadRegistry.areAnyOtherThreadsActiveInFormerTime at scanned
  split_ifs at scanned with spawned forbidden
  · exact absurd rfl scanned
  · exact absurd rfl scanned
  · exact ⟨spawned,by simpa using forbidden⟩

private theorem scan_none_iff {call : Call} (eligible : Eligible call) :
    call.registry.areAnyOtherThreadsActiveInFormerTime call.state call.remainingTime = .noneAlive ↔
      ∀ thread ∈ call.registry.threadStateIndex, Neutral call thread := by
  rw [scan_eq eligible.noneSpawned eligible.allowed]
  have walkedPast : call.registry.threadStateIndex.findSome?
      (call.registry.aliveReturn call.state call.remainingTime) = none ↔
        ∀ thread ∈ call.registry.threadStateIndex, Neutral call thread := by
    rw [List.findSome?_eq_none_iff]
    exact forall₂_congr fun thread _ => aliveReturn_none_iff call thread
  rw [← walkedPast]
  cases found : call.registry.threadStateIndex.findSome?
      (call.registry.aliveReturn call.state call.remainingTime) with
  | none => simp
  | some returned =>
    obtain ⟨thread,-,atThread⟩ := List.exists_of_findSome?_eq_some found
    have notNone : returned ≠ .noneAlive := by
      rintro rfl
      exact aliveReturn_ne_noneAlive call thread atThread
    simpa using notNone

private theorem scan_maybe_iff {call : Call} (eligible : Eligible call) :
    call.registry.areAnyOtherThreadsActiveInFormerTime call.state call.remainingTime = .maybeOneAlive ↔
      ∃ before doubtful after, StopsAt call before doubtful after := by
  rw [scan_eq eligible.noneSpawned eligible.allowed]
  constructor
  · intro scanned
    have found : call.registry.threadStateIndex.findSome?
        (call.registry.aliveReturn call.state call.remainingTime) = some .maybeOneAlive := by
      revert scanned
      cases call.registry.threadStateIndex.findSome? (call.registry.aliveReturn call.state call.remainingTime) <;>
        simp
    obtain ⟨before,doubtful,after,index,returned,neutral⟩ := List.findSome?_eq_some_iff.mp found
    exact ⟨before,doubtful,after,index,fun thread member => (aliveReturn_none_iff call thread).mp (neutral thread member),
      (aliveReturn_maybe_iff call doubtful).mp returned⟩
  · rintro ⟨before,doubtful,after,index,neutral,doubt⟩
    rw [List.findSome?_eq_some_iff.mpr ⟨before,doubtful,after,index,(aliveReturn_maybe_iff call doubtful).mpr doubt,
      fun thread member => (aliveReturn_none_iff call thread).mpr (neutral thread member)⟩]
    rfl

/-! ## The decision -/

private theorem eligible_of_permitted {memory : Memory} {call : Call} (ahead : 0 ≤ call.remainingTime)
    (permitted : (isValidToLeapInVirtualTimeTo memory call).1 = true) : Eligible call := by
  have notBehind : ¬ call.remainingTime < 0 := by omega
  unfold isValidToLeapInVirtualTimeTo at permitted
  simp only [if_neg notBehind] at permitted
  by_cases inRealTime : call.state.waitingInRealTime = true
  · simp [inRealTime] at permitted
  · rw [if_neg inRealTime] at permitted
    by_cases checked : call.pendingNotifications = 0 ∧
        call.registry.areAnyOtherThreadsActiveInFormerTime call.state call.remainingTime ≠ .atLeastOneAlive
    · obtain ⟨noneSpawned,allowed⟩ := scan_reached checked.2
      exact ⟨by simpa using inRealTime,ahead,checked.1,noneSpawned,allowed⟩
    · simp [if_neg checked] at permitted

/-- Past the first tests the answer depends on the scan and, if it has doubts, on the memory. -/
private theorem permitted_of_eligible {call : Call} (memory : Memory) (eligible : Eligible call) :
    (isValidToLeapInVirtualTimeTo memory call).1 = true ↔
      call.registry.areAnyOtherThreadsActiveInFormerTime call.state call.remainingTime = .noneAlive ∨
        call.registry.areAnyOtherThreadsActiveInFormerTime call.state call.remainingTime = .maybeOneAlive ∧
          Stagnant memory call := by
  have notBehind : ¬ call.remainingTime < 0 := by
    have ahead := eligible.ahead
    omega
  unfold isValidToLeapInVirtualTimeTo
  simp only [eligible.inVirtualTime,eligible.noneNotified,if_neg notBehind]
  cases call.registry.areAnyOtherThreadsActiveInFormerTime call.state call.remainingTime with
  | atLeastOneAlive => simp
  | noneAlive => simp
  | maybeOneAlive =>
    have stagnant_iff : Stagnant memory call ↔ memory.lastTotalThreadERT ≠ 0 ∧
        ¬ longLong (call.realTime - memory.lastGlobalVirtualTime) < 200000000 ∧
        call.registry.getSummedErtOfAllThreads = memory.lastTotalThreadERT ∧
        call.registry.areAllNativeWaitingThreadsBlockedAccordingToSystemState call.state = true :=
      ⟨fun stagnant => ⟨stagnant.remembered,not_lt.mpr stagnant.longAgo,stagnant.unchanged,stagnant.blocked⟩,
        fun ⟨remembered,longAgo,unchanged,blocked⟩ => ⟨remembered,not_lt.mp longAgo,unchanged,blocked⟩⟩
    rw [stagnant_iff]
    by_cases forgotten : memory.lastTotalThreadERT = 0
    · simp [forgotten]
    · by_cases early : longLong (call.realTime - memory.lastGlobalVirtualTime) < 200000000
      · simp [forgotten,early]
      · simp only [forgotten,early,if_false,if_true]
        split_ifs with still <;> simp_all

/-- A leap with non-negative remaining time is permitted exactly if the scan walks past every
    thread, or stops at a doubtful one while nothing moves. -/
theorem permitted_iff (memory : Memory) (call : Call) (ahead : 0 ≤ call.remainingTime) :
    (isValidToLeapInVirtualTimeTo memory call).1 = true ↔ Eligible call ∧
      ((∀ thread ∈ call.registry.threadStateIndex, Neutral call thread) ∨
        (∃ before doubtful after, StopsAt call before doubtful after) ∧ Stagnant memory call) := by
  constructor
  · intro permitted
    have eligible := eligible_of_permitted ahead permitted
    rw [permitted_of_eligible memory eligible,scan_none_iff eligible,scan_maybe_iff eligible] at permitted
    exact ⟨eligible,permitted⟩
  · rintro ⟨eligible,scanned⟩
    rw [permitted_of_eligible memory eligible,scan_none_iff eligible,scan_maybe_iff eligible]
    exact scanned

/-- A decision is unsafe exactly if the scan is reached and stops at a doubtful thread in front of
    an active one while nothing moves. -/
theorem safe_iff (memory : Memory) (call : Call) : Safe memory call ↔ ¬ Unsafe memory call := by
  constructor
  · rintro safe ⟨eligible,⟨before,doubtful,after,stops,thread,member,former,active⟩,stagnant⟩
    have permitted : (isValidToLeapInVirtualTimeTo memory call).1 = true :=
      (permitted_iff memory call eligible.ahead).mpr ⟨eligible,.inr ⟨⟨before,doubtful,after,stops⟩,stagnant⟩⟩
    have registered : thread ∈ call.registry.threadStateIndex := by
      rw [stops.index]
      simp [member]
    have inactive := (safe permitted eligible.ahead).noneActive thread registered former
    exact absurd active (by simp [inactive])
  · intro notUnsafe permitted ahead
    obtain ⟨eligible,walked | ⟨⟨before,doubtful,after,stops⟩,stagnant⟩⟩ :=
      (permitted_iff memory call ahead).mp permitted
    · exact ⟨fun thread member former => (walked thread member former).1,eligible.noneSpawned,
        eligible.noneNotified,eligible.allowed⟩
    · refine ⟨fun thread registered former => ?_,eligible.noneSpawned,eligible.noneNotified,eligible.allowed⟩
      rw [stops.index,List.mem_append,List.mem_cons] at registered
      obtain walked | rfl | behind := registered
      · exact (stops.neutral thread walked former).1
      · exact stops.doubt.inactive
      · by_contra active
        exact notUnsafe ⟨eligible,⟨before,doubtful,after,stops,thread,behind,former,by simpa using active⟩,stagnant⟩

/-- In every sequence of decisions, all are safe exactly if none is reached in an unsafe way. -/
theorem leaps_are_safe_iff (memory : Memory) (calls : List Call) :
    Meets step Safe memory calls ↔ Meets step (fun memory call => ¬ Unsafe memory call) memory calls :=
  meets_congr safe_iff memory calls

private def registered (currentState : Code) (timeout : Int64) (estimatedRealTime : Int) : Registered where
  toVexThreadState := { VexThreadState.init 0 with currentState,timeout }
  estimatedRealTime := estimatedRealTime
  localTime := 0
  ioCPUTime := 0
  executingPossiblyBlockingIo := false
  threadSystemStateBlocked := true

/-- A sleeping thread 500 ns ahead of the global time; a thread that waits for a signal stands in
    the index before one that reads a file. -/
private def sleeperAt (realTime : Int) : Call where
  state := registered .waiting 500 1000
  registry := {
    threadStateIndex := [registered .waiting (-1) 900,registered .learningIo (-1) 600,registered .waiting 500 1000]
    threadsBeingSpawned := 0
    forwardLeapsAllowed := true }
  pendingNotifications := 0
  globalTime := 500
  realTime := realTime

/-- The waiting thread ends the scan: 200 ms after the refusal the sleeper leaps past the reader. -/
theorem leaps_past_a_reading_thread : ¬ Meets step Safe {} [sleeperAt 0,sleeperAt 200000000] := by
  intro meets
  have remembered : step {} (sleeperAt 0) =
      some { lastTotalThreadERT := 2508,lastGlobalVirtualTime := 0 } := by decide
  have second := (meets.2 _ remembered).1
  have safe := second (by decide) (by decide)
  have inactive := safe.noneActive (registered .learningIo (-1) 600) (by simp [sleeperAt]) (by decide)
  exact absurd inactive (by decide)

end Vexjine.Leaping
