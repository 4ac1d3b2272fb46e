import Vexjine.QueuedTimes
import Vexjine.ThreadTimers
import Vexjine.VexThreadState

/-!
# Yields

A thread that yields is put behind all suspended threads of the queue, by its run time, and
suspended. The scheduler then pops each of them before it pops the thread again, as long as
no run time of theirs passes the thread's while they are queued.
-/

namespace Vexjine.Yields
open Heaps Floats ThreadQueue
open Vexjine.VirtualTimeline (longLong LLONG_MAX)
set_option linter.unusedSectionVars false

variable {Thread : Type*} [DecidableEq Thread]

/-! ## `onThreadYield` -/

/-- The parts of a manager that a yield reads or changes. -/
structure ThreadManager (Thread : Type*) where
  runnableThreads : Queue Thread
  states : Thread → VexThreadState
  runningThread : Option Thread

/-- What a yield finds: clocks, factors, the registry and the scheduling data of the thread. -/
structure Circumstances where
  yieldDuration : Int
  startingTime : Int
  lastCPUTime : Int
  virtualTimeSpeedup : ℚ
  globalScalingFactor : ℚ
  atLeastOneThreadBeingSpawned : Bool
  forcedSuspendFlag : Bool
  isControlled : Bool
  isSuspendingAllowed : Bool
  resumedLastAt : Int
  schedulerTimeslot : Int

namespace ThreadManager
variable (algorithms : HeapAlgorithms Thread Int) (circumstances : Circumstances) (manager : ThreadManager Thread)
  (state : Thread)

/-- The time that the thread is charged, as `addLocalTime` scales it. -/
def yieldTime : Int :=
  let timeDiff := circumstances.yieldDuration + circumstances.startingTime - circumstances.lastCPUTime
  let charged := if 0 < timeDiff then timeDiff else circumstances.yieldDuration
  (toLongLong (ThreadTimers.scaled circumstances.virtualTimeSpeedup circumstances.globalScalingFactor charged)).toInt

/-- The commit to the timeline leaves the thread's time. -/
def locklessUpdateTimeBy (time : Int) : ThreadManager Thread :=
  { manager with
    runnableThreads := manager.runnableThreads.change state
      (.setEstimatedRealTime (longLong (manager.runnableThreads.estimatedRealTime state + time))) }

def getHighestRunnableTime : Int :=
  manager.runnableThreads.threads.foldl (fun highestRunnableTime other =>
      if highestRunnableTime < manager.runnableThreads.estimatedRealTime other ∧
          ((manager.states other).isSuspended || (manager.states other).isNativeWaiting) = true then
        manager.runnableThreads.estimatedRealTime other
      else highestRunnableTime)
    (manager.runnableThreads.estimatedRealTime state)

def leapTo (time : Int) : ThreadManager Thread :=
  { manager with runnableThreads := manager.runnableThreads.change state (.leapForwardTo time) }

def anotherThreadAlreadySetRunning : Bool := manager.runningThread.any fun running => decide (running ≠ state)

def isNextRunnableThreadBefore (timestamp : Int) : Bool :=
  manager.runnableThreads.threads.head?.any fun next => decide (manager.runnableThreads.estimatedRealTime next < timestamp)

def shouldCurrentThreadSuspend : Bool :=
  if circumstances.forcedSuspendFlag || !circumstances.isControlled || manager.anotherThreadAlreadySetRunning state then true
  else if !circumstances.isSuspendingAllowed then false
  else if toDouble (manager.runnableThreads.estimatedRealTime state - circumstances.resumedLastAt) <
      toDouble (3 / 4 * toDouble circumstances.schedulerTimeslot) then false
  else manager.isNextRunnableThreadBefore (manager.runnableThreads.estimatedRealTime state)

def setSuspendedAndPushToRunnables : ThreadManager Thread where
  runnableThreads := manager.runnableThreads.push algorithms state
  states := Function.update manager.states state (((manager.states state).setSuspended.setTimedOut true).setTimeout (-1))
  runningThread := if manager.runningThread = some state then none else manager.runningThread

/-- Where no other thread runs. -/
def setRunningThread : ThreadManager Thread :=
  { manager with
    states := Function.update manager.states state ((manager.states state).setAwaken false).setRunning
    runningThread := some state }

/-- With `SUSPEND_OPT_FORCE_SUSPEND` and `SUSPEND_OPT_DONT_UPDATE_THREAD_TIME`, until the thread blocks. -/
def suspendCurrentThread : ThreadManager Thread :=
  if (!manager.runnableThreads.threads.isEmpty || circumstances.atLeastOneThreadBeingSpawned) ||
      manager.shouldCurrentThreadSuspend circumstances state then
    manager.setSuspendedAndPushToRunnables algorithms state
  else if manager.runningThread ≠ some state then manager.setRunningThread state
  else manager

/-- The thread's time is charged and moved behind the others'. -/
def movedBehind : ThreadManager Thread :=
  let charged := manager.locklessUpdateTimeBy state (yieldTime circumstances)
  charged.leapTo state (longLong (charged.getHighestRunnableTime state + 1))

def onThreadYield : ThreadManager Thread :=
  (manager.movedBehind circumstances state).suspendCurrentThread algorithms circumstances state

end ThreadManager

/-! ## What the scheduler pops -/

/-- The queue and the threads that were popped from it. -/
structure Popping (Thread : Type*) where
  queue : Queue Thread
  popped : List Thread

/-- The changes of the queue and of run times, after which the heap is rebuilt. -/
inductive Event (Thread : Type*)
  | pop
  | push (thread : Thread)
  | erase (thread : Thread)
  | update (estimatedRealTime : Thread → Int)

def step (algorithms : HeapAlgorithms Thread Int) (popping : Popping Thread) : Event Thread → Option (Popping Thread)
  | .pop => popping.queue.threads.head?.map fun top => ⟨popping.queue.pop algorithms,top :: popping.popped⟩
  | .push thread => some { popping with queue := popping.queue.push algorithms thread }
  | .erase thread => some { popping with queue := popping.queue.erase algorithms thread }
  | .update estimatedRealTime =>
    some { popping with queue := ({ popping.queue with estimatedRealTime } : Queue Thread).update algorithms }

section Order
variable (waiting : Thread → Prop) (state : Thread)

/-- No waiting thread that is still to be popped leaves the queue or runs past the thread. -/
def StaysBefore (popping : Popping Thread) : Event Thread → Prop
  | .erase thread => waiting thread → thread ∈ popping.popped
  | .update estimatedRealTime => ∀ other, waiting other → other ∉ popping.popped →
      estimatedRealTime other < estimatedRealTime state
  | .pop | .push _ => True

/-- The thread is popped after all waiting ones. -/
def PopsWaitingFirst (popping : Popping Thread) (event : Event Thread) : Prop :=
  event = .pop → popping.queue.threads.head? = some state → ∀ other, waiting other → other ∈ popping.popped

end Order

/-- No thread that a yield looks for waits in the queue until the largest time. -/
def BelowLargest (manager : ThreadManager Thread) : Prop :=
  ∀ other ∈ manager.runnableThreads.threads,
    ((manager.states other).isSuspended || (manager.states other).isNativeWaiting) = true →
      manager.runnableThreads.estimatedRealTime other < LLONG_MAX

/-- The thread is suspended in the queue. It is behind the suspended threads, which are all popped before it, where
    none of the threads that it looks for is at the largest time. -/
structure WaitsBehind (algorithms : HeapAlgorithms Thread Int) (before after : ThreadManager Thread) (state : Thread) :
    Prop where
  suspended : (after.states state).isSuspended = true
  queued : state ∈ after.runnableThreads.threads
  later : BelowLargest before → ∀ other ∈ before.runnableThreads.threads, (before.states other).isSuspended = true →
    after.runnableThreads.estimatedRealTime other < after.runnableThreads.estimatedRealTime state
  order : BelowLargest before → ∀ events, Runs.Meets (step algorithms)
      (StaysBefore (fun other => other ∈ before.runnableThreads.threads ∧ (before.states other).isSuspended = true) state)
      ⟨after.runnableThreads,[]⟩ events →
    Runs.Meets (step algorithms)
      (PopsWaitingFirst (fun other => other ∈ before.runnableThreads.threads ∧ (before.states other).isSuspended = true) state)
      ⟨after.runnableThreads,[]⟩ events

/-! ## The run time behind the others -/

namespace ThreadManager
section Leap
variable {circumstances : Circumstances} {manager : ThreadManager Thread} {state : Thread}

/-- By induction on the queue: the scan only raises the time, and past each thread that it counts. -/
private theorem scan_highest (counted : Thread → Bool) (time : Thread → Int) (threads : List Thread) :
    ∀ start : Int,
      start ≤ threads.foldl (fun highest other => if highest < time other ∧ counted other = true then time other else highest)
        start ∧
      ∀ other ∈ threads, counted other = true → time other ≤
        threads.foldl (fun highest other => if highest < time other ∧ counted other = true then time other else highest)
          start := by
  induction threads with
  | nil =>
    intro start
    exact ⟨le_rfl,fun other member => absurd member List.not_mem_nil⟩
  | cons first rest ih =>
    intro start
    obtain ⟨raised,passed⟩ := ih (if start < time first ∧ counted first = true then time first else start)
    have higher : start ≤ if start < time first ∧ counted first = true then time first else start := by
      split <;> omega
    refine ⟨higher.trans raised,?_⟩
    intro other member isCounted
    rcases List.mem_cons.mp member with rfl | later
    · have reached : time other ≤ if start < time other ∧ counted other = true then time other else start := by
        by_cases before : start < time other
        · rw [if_pos ⟨before,isCounted⟩]
        · rw [if_neg fun both => before both.1]
          omega
      exact reached.trans raised
    · exact passed other later isCounted

/-- The scan ends where it started or at a thread that it counts. -/
private theorem scan_attained (counted : Thread → Bool) (time : Thread → Int) (threads : List Thread) :
    ∀ start : Int, ∃ highest, highest =
      threads.foldl (fun highest other => if highest < time other ∧ counted other = true then time other else highest) start ∧
      (highest = start ∨ ∃ other ∈ threads, counted other = true ∧ time other = highest) := by
  induction threads with
  | nil =>
    intro start
    exact ⟨start,rfl,.inl rfl⟩
  | cons first rest ih =>
    intro start
    obtain ⟨highest,is,attained⟩ := ih (if start < time first ∧ counted first = true then time first else start)
    refine ⟨highest,is,?_⟩
    rcases attained with kept | ⟨other,member,isCounted,atTime⟩
    · by_cases raised : start < time first ∧ counted first = true
      · rw [if_pos raised] at kept
        exact .inr ⟨first,List.mem_cons_self,raised.2,kept.symm⟩
      · rw [if_neg raised] at kept
        exact .inl kept
    · exact .inr ⟨other,List.mem_cons_of_mem first member,isCounted,atTime⟩

theorem suspended_le_getHighestRunnableTime {other : Thread} (queued : other ∈ manager.runnableThreads.threads)
    (suspended : (manager.states other).isSuspended = true) :
    manager.runnableThreads.estimatedRealTime other ≤ manager.getHighestRunnableTime state :=
  (scan_highest _ _ manager.runnableThreads.threads _).2 other queued (by rw [suspended,Bool.true_or])

private theorem movedBehind_valid (valid : manager.runnableThreads.Valid) (absent : state ∉ manager.runnableThreads.threads) :
    (manager.movedBehind circumstances state).runnableThreads.Valid :=
  Queue.change_valid (Queue.change_valid valid absent _) absent _

private theorem longLong_range (value : Int) : -2 ^ 63 ≤ longLong value ∧ longLong value ≤ LLONG_MAX := by
  unfold longLong LLONG_MAX
  rw [Int.bmod_def]
  omega

/-- The thread leaps past the others unless it is at the largest time itself. -/
private theorem movedBehind_later {other : Thread} (times : LongLongTimes manager.runnableThreads)
    (below : BelowLargest manager) (absent : state ∉ manager.runnableThreads.threads)
    (queued : other ∈ manager.runnableThreads.threads) (suspended : (manager.states other).isSuspended = true) :
    (manager.movedBehind circumstances state).runnableThreads.estimatedRealTime other <
      (manager.movedBehind circumstances state).runnableThreads.estimatedRealTime state := by
  have different : other ≠ state := by
    rintro rfl
    exact absent queued
  let charged := manager.locklessUpdateTimeBy state (yieldTime circumstances)
  have reached : charged.runnableThreads.estimatedRealTime other ≤ charged.getHighestRunnableTime state :=
    suspended_le_getHighestRunnableTime queued suspended
  have unchanged : (manager.movedBehind circumstances state).runnableThreads.estimatedRealTime other =
      charged.runnableThreads.estimatedRealTime other := Function.update_of_ne different _ _
  have uncharged : ∀ queued ∈ manager.runnableThreads.threads,
      charged.runnableThreads.estimatedRealTime queued = manager.runnableThreads.estimatedRealTime queued := by
    intro another member
    have apart : another ≠ state := by
      rintro rfl
      exact absent member
    exact Function.update_of_ne apart _ _
  have own : charged.runnableThreads.estimatedRealTime state =
      longLong (manager.runnableThreads.estimatedRealTime state + yieldTime circumstances) := Function.update_self _ _ _
  have moved : (manager.movedBehind circumstances state).runnableThreads.estimatedRealTime state =
      max (charged.runnableThreads.estimatedRealTime state) (longLong (charged.getHighestRunnableTime state + 1)) :=
    Function.update_self _ _ _
  have earlier := below other queued (by rw [suspended,Bool.true_or])
  have ownRange := longLong_range (manager.runnableThreads.estimatedRealTime state + yieldTime circumstances)
  obtain ⟨highest,is,attained⟩ := scan_attained
    (fun other => (charged.states other).isSuspended || (charged.states other).isNativeWaiting)
    charged.runnableThreads.estimatedRealTime charged.runnableThreads.threads
    (charged.runnableThreads.estimatedRealTime state)
  have isHighest : charged.getHighestRunnableTime state = highest := is.symm
  rw [uncharged other queued] at reached unchanged
  rw [unchanged,moved,isHighest]
  rw [isHighest] at reached
  rw [own] at attained ⊢
  rcases attained with kept | ⟨another,member,counted,atTime⟩
  · unfold longLong LLONG_MAX at *
    rw [Int.bmod_def (highest + 1)]
    omega
  · have isBelow := below another member counted
    have inRange := times another
    rw [uncharged another member] at atTime
    unfold longLong LLONG_MAX at *
    rw [Int.bmod_def (highest + 1)]
    omega

end Leap
end ThreadManager

/-! ## The order of the pops -/

section Pops
variable {algorithms : HeapAlgorithms Thread Int} {waiting : Thread → Prop} {state : Thread}

/-- The waiting threads that were not popped are queued before the thread. -/
private structure Ahead (waiting : Thread → Prop) (state : Thread) (popping : Popping Thread) : Prop where
  valid : popping.queue.Valid
  before : ∀ other, waiting other → other ∉ popping.popped → other ∈ popping.queue.threads ∧
    popping.queue.estimatedRealTime other < popping.queue.estimatedRealTime state

private theorem step_ahead (popping : Popping Thread) (event : Event Thread) (next : Popping Thread)
    (ahead : Ahead waiting state popping) (stays : StaysBefore waiting state popping event)
    (stepped : step algorithms popping event = some next) : Ahead waiting state next := by
  have heap := Queue.valid_iff.mp ahead.valid
  cases event with
  | pop =>
    simp only [step,Option.map_eq_some_iff] at stepped
    obtain ⟨top,first,rfl⟩ := stepped
    refine ⟨Queue.pop_valid ahead.valid,fun other waits unpopped => ?_⟩
    rw [List.mem_cons,not_or] at unpopped
    obtain ⟨queued,earlier⟩ := ahead.before other waits unpopped.2
    obtain ⟨later,threads⟩ := List.head?_eq_some_iff.mp first
    rw [threads] at queued
    exact ⟨(pop_tail algorithms ahead.valid threads).mem_iff.mpr ((List.mem_cons.mp queued).resolve_left unpopped.1),earlier⟩
  | push thread =>
    cases stepped
    refine ⟨Queue.push_valid ahead.valid thread,fun other waits unpopped => ?_⟩
    obtain ⟨queued,earlier⟩ := ahead.before other waits unpopped
    exact ⟨(algorithms.pushHeap_perm thread heap).mem_iff.mpr (List.mem_cons_of_mem thread queued),earlier⟩
  | erase thread =>
    cases stepped
    refine ⟨Queue.update_valid _,fun other waits unpopped => ?_⟩
    obtain ⟨queued,earlier⟩ := ahead.before other waits unpopped
    have different : other ≠ thread := by
      rintro rfl
      exact unpopped (stays waits)
    exact ⟨(algorithms.makeHeap_perm _ _).mem_iff.mpr ((List.mem_erase_of_ne different).mpr queued),earlier⟩
  | update estimatedRealTime =>
    cases stepped
    refine ⟨Queue.update_valid _,fun other waits unpopped => ?_⟩
    obtain ⟨queued,-⟩ := ahead.before other waits unpopped
    exact ⟨(algorithms.makeHeap_perm _ _).mem_iff.mpr queued,stays other waits unpopped⟩

/-- The top of a valid queue is not behind a queued thread. -/
private theorem popsWaitingFirst_of_ahead (popping : Popping Thread) (event : Event Thread)
    (ahead : Ahead waiting state popping) : PopsWaitingFirst waiting state popping event := by
  intro _ first other waits
  by_contra unpopped
  obtain ⟨queued,earlier⟩ := ahead.before other waits unpopped
  have least := ahead.valid.2 state first other queued
  omega

private theorem order_of_ahead {popping : Popping Thread} (ahead : Ahead waiting state popping) (events : List (Event Thread))
    (stays : Runs.Meets (step algorithms) (StaysBefore waiting state) popping events) :
    Runs.Meets (step algorithms) (PopsWaitingFirst waiting state) popping events :=
  Runs.meets_of_invariant step_ahead (fun popping event ahead _ => popsWaitingFirst_of_ahead popping event ahead) ahead stays

end Pops

/-! ## Yielding -/

section Yielding
variable (algorithms : HeapAlgorithms Thread Int) (circumstances : Circumstances) (manager : ThreadManager Thread)
  (state : Thread)

/-- Some thread can run instead, or the thread has to stop in any case. -/
def GoesBehind : Prop :=
  manager.runnableThreads.threads ≠ [] ∨ circumstances.atLeastOneThreadBeingSpawned = true ∨
    circumstances.forcedSuspendFlag = true ∨ circumstances.isControlled = false ∨
    manager.anotherThreadAlreadySetRunning state = true

section Outcome
variable {algorithms circumstances manager state}

/-- An empty queue has no thread that is next. -/
private theorem suspends_iff :
    ((!(manager.movedBehind circumstances state).runnableThreads.threads.isEmpty ||
        circumstances.atLeastOneThreadBeingSpawned) ||
      (manager.movedBehind circumstances state).shouldCurrentThreadSuspend circumstances state) = true ↔
      GoesBehind circumstances manager state := by
  have sameThreads : (manager.movedBehind circumstances state).runnableThreads.threads = manager.runnableThreads.threads := rfl
  have sameRunning : (manager.movedBehind circumstances state).anotherThreadAlreadySetRunning state =
      manager.anotherThreadAlreadySetRunning state := rfl
  rw [GoesBehind,ThreadManager.shouldCurrentThreadSuspend,sameThreads,sameRunning]
  cases threads : manager.runnableThreads.threads with
  | cons first rest => simp
  | nil =>
    have noNext : (manager.movedBehind circumstances state).isNextRunnableThreadBefore
        ((manager.movedBehind circumstances state).runnableThreads.estimatedRealTime state) = false := by
      rw [ThreadManager.isNextRunnableThreadBefore,sameThreads,threads]
      rfl
    rw [noNext]
    have forcedIff : (circumstances.forcedSuspendFlag || !circumstances.isControlled ||
        manager.anotherThreadAlreadySetRunning state) = true ↔ circumstances.forcedSuspendFlag = true ∨
          circumstances.isControlled = false ∨ manager.anotherThreadAlreadySetRunning state = true := by
      simp [or_assoc]
    by_cases forced : (circumstances.forcedSuspendFlag || !circumstances.isControlled ||
        manager.anotherThreadAlreadySetRunning state) = true
    · rw [if_pos forced]
      exact iff_of_true (Bool.or_true _) (.inr (.inr (forcedIff.mp forced)))
    · rw [if_neg forced]
      rw [forcedIff] at forced
      simp [forced]

private theorem suspended_waitsBehind (times : LongLongTimes manager.runnableThreads) (valid : manager.runnableThreads.Valid)
    (absent : state ∉ manager.runnableThreads.threads) : WaitsBehind algorithms manager
      ((manager.movedBehind circumstances state).setSuspendedAndPushToRunnables algorithms state) state := by
  let moved := manager.movedBehind circumstances state
  have heap : moved.runnableThreads.Valid := ThreadManager.movedBehind_valid valid absent
  have pushed : (moved.setSuspendedAndPushToRunnables algorithms state).runnableThreads.threads.Perm
      (state :: manager.runnableThreads.threads) := algorithms.pushHeap_perm state (Queue.valid_iff.mp heap)
  have later : BelowLargest manager → ∀ other ∈ manager.runnableThreads.threads,
      (manager.states other).isSuspended = true →
      moved.runnableThreads.estimatedRealTime other < moved.runnableThreads.estimatedRealTime state :=
    fun below other queued suspended => ThreadManager.movedBehind_later times below absent queued suspended
  have suspended : ((moved.setSuspendedAndPushToRunnables algorithms state).states state).isSuspended = true := by
    simp only [ThreadManager.setSuspendedAndPushToRunnables,Function.update_self]
    rfl
  refine ⟨suspended,pushed.mem_iff.mpr List.mem_cons_self,later,fun below events stays => order_of_ahead ?_ events stays⟩
  refine ⟨Queue.push_valid heap state,fun other waits _ => ⟨?_,later below other waits.1 waits.2⟩⟩
  exact pushed.mem_iff.mpr (List.mem_cons_of_mem state waits.1)

private theorem declined_runs (declines : ¬ GoesBehind circumstances manager state) :
    (manager.onThreadYield algorithms circumstances state).runnableThreads.threads = [] ∧
      (manager.onThreadYield algorithms circumstances state).runningThread = some state := by
  have empty : manager.runnableThreads.threads = [] := by
    by_contra queued
    exact declines (.inl queued)
  rw [ThreadManager.onThreadYield,ThreadManager.suspendCurrentThread,if_neg (mt suspends_iff.mp declines)]
  split
  · exact ⟨empty,rfl⟩
  · next running => exact ⟨empty,of_not_not running⟩

end Outcome

/-- A thread that goes behind the others waits behind all threads that are suspended in the queue; otherwise the
    queue is empty and the thread goes on running. -/
theorem onThreadYield_waitsBehind (times : LongLongTimes manager.runnableThreads) (valid : manager.runnableThreads.Valid)
    (absent : state ∉ manager.runnableThreads.threads) :
    (GoesBehind circumstances manager state →
      WaitsBehind algorithms manager (manager.onThreadYield algorithms circumstances state) state) ∧
    (¬ GoesBehind circumstances manager state →
      (manager.onThreadYield algorithms circumstances state).runnableThreads.threads = [] ∧
        (manager.onThreadYield algorithms circumstances state).runningThread = some state) := by
  refine ⟨fun goes => ?_,declined_runs⟩
  rw [ThreadManager.onThreadYield,ThreadManager.suspendCurrentThread,if_pos (suspends_iff.mpr goes)]
  exact suspended_waitsBehind times valid absent

end Yielding

/-- Thread 1 is suspended at 9 while thread 0 runs at 5. -/
private def oneSuspended : ThreadManager Nat where
  runnableThreads := ⟨[1],fun thread => if thread = 0 then 5 else 9⟩
  states _ := (VexThreadState.init 0).setSuspended
  runningThread := some 0

/-- A controlled thread; a yield costs 3 ns. -/
private def yieldsAtStart : Circumstances := ⟨3,0,0,1,1,false,false,true,true,0,100000000⟩

private theorem oneSuspended_times : LongLongTimes oneSuspended.runnableThreads := by
  intro other
  simp only [oneSuspended]
  split_ifs <;> decide

theorem yielding_goes_behind : LongLongTimes oneSuspended.runnableThreads ∧ oneSuspended.runnableThreads.Valid ∧
    0 ∉ oneSuspended.runnableThreads.threads ∧ GoesBehind yieldsAtStart oneSuspended 0 ∧ BelowLargest oneSuspended ∧
    WaitsBehind .ascending oneSuspended (oneSuspended.onThreadYield .ascending yieldsAtStart 0) 0 := by
  have valid : oneSuspended.runnableThreads.Valid := topLeast_of_isHeap (isHeap_of_pairwise (by simp [oneSuspended]))
  have goes : GoesBehind yieldsAtStart oneSuspended 0 := .inl (by simp [oneSuspended])
  have below : BelowLargest oneSuspended := by
    intro other queued _
    rw [List.mem_singleton.mp queued]
    decide
  exact ⟨oneSuspended_times,valid,by decide,goes,below,
    (onThreadYield_waitsBehind _ _ _ _ oneSuspended_times valid (by decide)).1 goes⟩

/-- With an empty queue, the thread goes on running; and it is queued before a thread that is suspended at the
    largest time. -/
theorem lone_thread_goes_on : (¬ ∀ (algorithms : HeapAlgorithms Nat Int) (circumstances : Circumstances)
      (manager : ThreadManager Nat) (state : Nat), LongLongTimes manager.runnableThreads →
      manager.runnableThreads.Valid → state ∉ manager.runnableThreads.threads →
      ((manager.onThreadYield algorithms circumstances state).states state).isSuspended = true ∧
        state ∈ (manager.onThreadYield algorithms circumstances state).runnableThreads.threads) ∧
    ∃ manager : ThreadManager Nat, manager.runnableThreads.Valid ∧ manager.runnableThreads.threads = [1] ∧
      (manager.states 1).isSuspended = true ∧ manager.runnableThreads.estimatedRealTime 1 = LLONG_MAX ∧
      (manager.onThreadYield .ascending yieldsAtStart 0).runnableThreads.estimatedRealTime 0 = 8 := by
  constructor
  · intro claimed
    let alone : ThreadManager Nat := { oneSuspended with runnableThreads := ⟨[],fun _ => 5⟩ }
    have valid : alone.runnableThreads.Valid := topLeast_of_isHeap isHeap_nil
    have fits : -2 ^ 63 ≤ (5 : Int) ∧ 5 ≤ LLONG_MAX := by decide
    have times : LongLongTimes alone.runnableThreads := fun _ => fits
    have queued := (claimed .ascending yieldsAtStart alone 0 times valid List.not_mem_nil).2
    have declines : ¬ GoesBehind yieldsAtStart alone 0 := by
      simp [GoesBehind,alone,oneSuspended,yieldsAtStart,ThreadManager.anotherThreadAlreadySetRunning]
    rw [(declined_runs declines).1] at queued
    exact List.not_mem_nil queued
  · let atLargest : ThreadManager Nat :=
      { oneSuspended with runnableThreads := ⟨[1],fun thread => if thread = 0 then 5 else LLONG_MAX⟩ }
    refine ⟨atLargest,topLeast_of_isHeap (isHeap_of_pairwise (by simp [atLargest])),rfl,rfl,rfl,?_⟩
    decide +kernel

end Vexjine.Yields
