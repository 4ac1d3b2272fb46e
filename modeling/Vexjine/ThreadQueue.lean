import Vexjine.Heaps
import Vexjine.VirtualTimeline

/-!
# The queue of runnable threads

The queue is a heap over the estimated run times of its threads. Its operations lock
its mutex, one at a time; the run times are fields of the threads and change without
it. Threads and schedulers interleave between any two accesses to the queue or to a
run time.
-/

namespace Vexjine.ThreadQueue
open Heaps
open Vexjine.VirtualTimeline (longLong)
set_option linter.unusedSimpArgs false
set_option linter.unusedSectionVars false

variable {Thread Agent : Type*} [DecidableEq Thread] [DecidableEq Agent]

/-! ## Accesses -/

inductive Change
  | add (time : Int)
  | leapForwardTo (time : Int)
  | setEstimatedRealTime (time : Int)
  deriving DecidableEq

def Change.apply (estimatedRealTime : Int) : Change → Int
  | .add time => estimatedRealTime + time
  | .leapForwardTo time => max estimatedRealTime time
  | .setEstimatedRealTime time => time

/-- What the invalidation of predictions reads of a thread. -/
structure IoPrediction where
  inIoPredictionPhase : Bool
  lastRealTime : Int
  lastIoPrediction : Int64
  timesIoPredictionWasAddedToEstimatedTime : UInt64

namespace IoPrediction
variable (prediction : IoPrediction)

def getTotalTimePredicted : Int64 :=
  ((2 * prediction.timesIoPredictionWasAddedToEstimatedTime - 1) * prediction.lastIoPrediction.toUInt64).toInt64

def isIoPredictionStillValid (currentRealTime : Int) : Bool :=
  longLong (currentRealTime - prediction.lastRealTime - prediction.getTotalTimePredicted.toInt) ≤ 0

def extendPredictionPeriod : IoPrediction :=
  { prediction with
    timesIoPredictionWasAddedToEstimatedTime := prediction.timesIoPredictionWasAddedToEstimatedTime * 2 }

def extension : Int :=
  (prediction.extendPredictionPeriod.timesIoPredictionWasAddedToEstimatedTime *
    prediction.lastIoPrediction.toUInt64).toInt64.toInt

end IoPrediction

/-- One change of a run time, or one critical section of the queue's mutex. -/
inductive Access (Thread : Type*)
  | change (thread : Thread) (change : Change)
  | push (thread : Thread)
  | update
  | erase (thread : Thread)
  /-- `find`, which an update or a push follows. -/
  | find (thread : Thread)
  /-- `top` and `isNextRunnableThreadBefore`. -/
  | top
  /-- `kept`: the thread runs as a blocker, is in predicted I/O or waits for its real code. -/
  | getNextIfEqualsElseReturnTop (lockedState : Thread) (kept : Bool)
  /-- `skipped`: the threads that simulate a model or wait for their real code. -/
  | setThreadToNextBiggestErt (thread : Thread) (skipped : Thread → Bool)
  | invalidateExpiredIoPredictions (predictions : Thread → IoPrediction) (currentRealTime : Int)

/-- The heap and the run times that it is ordered by. -/
structure Queue (Thread : Type*) where
  threads : List Thread
  estimatedRealTime : Thread → Int

namespace Queue
variable (algorithms : HeapAlgorithms Thread Int) (queue : Queue Thread)

def Valid : Prop := TopLeast queue.estimatedRealTime queue.threads

def change (thread : Thread) (change : Change) : Queue Thread :=
  { queue with
    estimatedRealTime :=
      Function.update queue.estimatedRealTime thread (change.apply (queue.estimatedRealTime thread)) }

def push (thread : Thread) : Queue Thread :=
  { queue with threads := algorithms.pushHeap queue.estimatedRealTime thread queue.threads }

def pop : Queue Thread := { queue with threads := algorithms.popHeap queue.estimatedRealTime queue.threads }

def update : Queue Thread := { queue with threads := algorithms.makeHeap queue.estimatedRealTime queue.threads }

/-- Erases the first copy. -/
def erase (thread : Thread) : Queue Thread := update algorithms { queue with threads := queue.threads.erase thread }

def getNextIfEqualsElseReturnTop (lockedState : Thread) (kept : Bool) : Queue Thread :=
  if queue.threads.head? = some lockedState ∧ kept = false then queue.pop algorithms else queue

/-- The thread that the given one is put behind: the next one that is not skipped, or the last one. -/
def nextBiggest (thread : Thread) (skipped : Thread → Bool) : Option Thread :=
  if thread ∈ queue.threads then
    (((queue.threads.dropWhile fun other => other ≠ thread).tail.dropWhile skipped).head?).or queue.threads.getLast?
  else none

def setThreadToNextBiggestErt (thread : Thread) (skipped : Thread → Bool) : Queue Thread :=
  match queue.nextBiggest thread skipped with
  | some next => update algorithms (queue.change thread (.leapForwardTo (longLong (queue.estimatedRealTime next + 1))))
  | none => queue

/-- The queue, the predictions and the queues that were read at each pop, push and look at the top;
    the newest is first. -/
structure Invalidation (Thread : Type*) where
  queue : Queue Thread
  predictions : Thread → IoPrediction
  reads : List (Queue Thread)

namespace Invalidation
variable (invalidation : Invalidation Thread)

def top : Invalidation Thread := { invalidation with reads := invalidation.queue :: invalidation.reads }

def pop : Invalidation Thread :=
  { invalidation with
    queue := invalidation.queue.pop algorithms
    reads := invalidation.queue :: invalidation.reads }

def push (thread : Thread) : Invalidation Thread :=
  { invalidation with
    queue := invalidation.queue.push algorithms thread
    reads := invalidation.queue :: invalidation.reads }

def invalidateIoPrediction (thread : Thread) : Invalidation Thread :=
  { invalidation with
    queue := invalidation.queue.change thread (.add (invalidation.predictions thread).extension)
    predictions :=
      Function.update invalidation.predictions thread (invalidation.predictions thread).extendPredictionPeriod }

/-- Each call but the last has popped a thread, so the length of the queue is enough fuel. -/
def recursivelyUpdatePendingIoRequests (currentRealTime : Int) :
    Nat → Thread → Invalidation Thread → Invalidation Thread
  | 0, thread, invalidation => invalidation.invalidateIoPrediction thread
  | fuel + 1, thread, invalidation =>
    match invalidation.queue.threads.head? with
    | none => invalidation.invalidateIoPrediction thread
    | some next =>
      let prediction := invalidation.predictions next
      if prediction.inIoPredictionPhase && !prediction.isIoPredictionStillValid currentRealTime then
        (((recursivelyUpdatePendingIoRequests currentRealTime fuel next (invalidation.top.pop algorithms)).push
          algorithms next)).invalidateIoPrediction thread
      else invalidation.top.invalidateIoPrediction thread

end Invalidation

def invalidateExpiredIoPredictions (predictions : Thread → IoPrediction) (currentRealTime : Int) : Invalidation Thread :=
  let start : Invalidation Thread := ⟨queue,predictions,[]⟩
  match queue.threads.head? with
  | none => start
  | some thread =>
    (Invalidation.recursivelyUpdatePendingIoRequests algorithms currentRealTime queue.threads.length thread
      (start.top.pop algorithms)).push algorithms thread

def perform : Access Thread → Queue Thread
  | .change thread change => queue.change thread change
  | .push thread => queue.push algorithms thread
  | .update => queue.update algorithms
  | .erase thread => queue.erase algorithms thread
  | .find _ | .top => queue
  | .getNextIfEqualsElseReturnTop lockedState kept => queue.getNextIfEqualsElseReturnTop algorithms lockedState kept
  | .setThreadToNextBiggestErt thread skipped => queue.setThreadToNextBiggestErt algorithms thread skipped
  | .invalidateExpiredIoPredictions predictions currentRealTime =>
    (queue.invalidateExpiredIoPredictions algorithms predictions currentRealTime).queue

/-- The queues that the access reads as heaps: at its pops and pushes and where it looks at the top. -/
def reads : Access Thread → List (Queue Thread)
  | .push _ | .top | .getNextIfEqualsElseReturnTop _ _ => [queue]
  | .invalidateExpiredIoPredictions predictions currentRealTime =>
    (queue.invalidateExpiredIoPredictions algorithms predictions currentRealTime).reads
  | .change _ _ | .update | .erase _ | .find _ | .setThreadToNextBiggestErt _ _ => []

end Queue

/-! ## The managers' methods -/

inductive ThreadManager
  | base
  | looseParallel
  deriving DecidableEq

inductive Intention
  | toKeepOnRunning
  | toBeSuspended
  | toBeDisregarded
  deriving DecidableEq

/-- What threads and schedulers do to the queue and to the run times of threads; a handler or a
    scheduling step is a sequence of these. -/
inductive Method (Thread : Type*)
  | updateThreadLocalTimeSinceLastResumeTo (thread : Thread) (timeAdded : Int)
  /-- Also a timeout or a prediction that is added before a wait, and the service time of a model. -/
  | addElapsedTime (thread : Thread) (time : Int)
  /-- When a wait times out, and when a thread is resumed. -/
  | leapForwardTo (thread : Thread) (time : Int)
  | setCurrentThreadVT (thread : Thread) (timeDiff : Int)
  | onThreadYield (thread : Thread) (timeDiff highestTimeAfterMe : Int)
  | isNextRunnableThreadBefore
  | pushIntoRunnableQueue (thread : Thread)
  | erase (thread : Thread)
  | setRunningThread (thread : Thread) (globalTime : Int)
  | notifySchedulerForVirtualizedTime (thread : Thread) (scaled : Bool)
  /-- `stopped`: the thread is native waiting, suspended or waiting. -/
  | setSuspendedAndPushToRunnables (thread : Thread) (stopped : Bool)
  | setTimedWaitingThread (thread : Thread) (timeout : Int)
  | setIoThread (thread : Thread) (learning : Bool) (timeout : Int)
  | onLearnedIoEnd (thread : Thread) (timeout actualIoDuration : Int)
  | onPredictedIoEnd (thread : Thread) (actualIoDuration totalTimePredicted : Int)
  /-- `peeks`: the signal handler gets to the queue when it asks whether the thread should suspend. -/
  | suspendThread (thread : Thread) (signalTimeslot timeDiff : Int) (peeks : Bool) (intention : Intention)
  | onWrappedWaitingInterrupt (thread : Thread) (interruptionTime : Int)
  | onWrappedTimedWaitingInterrupt (thread : Thread) (interruptionTime : Int)
  | onAnyReplacedWaitingInterrupt (thread : Thread) (interruptionTime timeout : Int)
  | getNextIfEqualsElseReturnTop (lockedState : Thread) (kept : Bool)
  | setThreadToNextBiggestErt (thread : Thread) (skipped : Thread → Bool)
  | invalidateExpiredIoPredictions (predictions : Thread → IoPrediction) (currentRealTime : Int)

namespace Method
variable (manager : ThreadManager) (timeScaled : Thread → Bool)

/-- Threads whose barriers the manager sets and clears. -/
def hasBarrier (thread : Thread) : Bool := manager = .looseParallel && timeScaled thread

def locklessUpdateTimeBy (schedulerTimeslot : Int) (thread : Thread) (timeDiff : Int) : List (Access Thread) :=
  (if hasBarrier manager timeScaled thread then [.change thread (.add (-schedulerTimeslot))] else []) ++
    [.change thread (.add timeDiff)]

def updateTime (schedulerTimeslot : Int) (thread : Thread) (timeDiff : Int) : List (Access Thread) :=
  if 0 < timeDiff then locklessUpdateTimeBy manager timeScaled schedulerTimeslot thread timeDiff else []

/-- The manager's reaction to the answer of the thread that it signalled. -/
def onIntention (schedulerTimeslot : Int) (thread : Thread) : Intention → List (Access Thread)
  | .toBeSuspended => if hasBarrier manager timeScaled thread then [.update] else [.push thread]
  | .toBeDisregarded => if hasBarrier manager timeScaled thread then [.erase thread] else []
  | .toKeepOnRunning =>
    if hasBarrier manager timeScaled thread then [.change thread (.add schedulerTimeslot),.update] else []

/-- The accesses of a method, with the manager's time slot. -/
def body (schedulerTimeslot : Int) : Method Thread → List (Access Thread)
  | .updateThreadLocalTimeSinceLastResumeTo thread timeAdded =>
    if 0 < timeAdded then [.change thread (.add timeAdded)] else []
  | .addElapsedTime thread time => [.change thread (.add time)]
  | .leapForwardTo thread time => [.change thread (.leapForwardTo time)]
  | .setCurrentThreadVT thread timeDiff => updateTime manager timeScaled schedulerTimeslot thread timeDiff
  | .onThreadYield thread timeDiff highestTimeAfterMe =>
    locklessUpdateTimeBy manager timeScaled schedulerTimeslot thread timeDiff ++
      [.change thread (.leapForwardTo (highestTimeAfterMe + 1))]
  | .isNextRunnableThreadBefore => [.top]
  | .pushIntoRunnableQueue thread => [.push thread]
  | .erase thread => [.erase thread]
  | .setRunningThread thread globalTime => .change thread (.leapForwardTo globalTime) ::
      if hasBarrier manager timeScaled thread then [.change thread (.add schedulerTimeslot),.find thread] else []
  -- the start of scaling continues in `setRunningThread`
  | .notifySchedulerForVirtualizedTime thread scaled =>
    if manager = .looseParallel ∧ scaled = false then [.erase thread,.change thread (.add (-schedulerTimeslot))] else []
  | .setSuspendedAndPushToRunnables thread stopped =>
    if hasBarrier manager timeScaled thread then
      .change thread (.add (-schedulerTimeslot)) :: if stopped then [.push thread] else [.update]
    else [.push thread]
  | .setTimedWaitingThread thread timeout => if manager = .base ∨ 0 < timeout then [.push thread] else []
  | .setIoThread thread learning timeout =>
    if learning then (if timeout ≠ -1 then [.change thread (.add timeout),.push thread] else []) else [.push thread]
  | .onLearnedIoEnd thread timeout actualIoDuration =>
    if timeout ≠ -1 then [.change thread (.add (-timeout)),.change thread (.add actualIoDuration),.update]
    else [.change thread (.add actualIoDuration)]
  | .onPredictedIoEnd thread actualIoDuration totalTimePredicted =>
    [.change thread (.add (actualIoDuration - totalTimePredicted)),.update]
  | .suspendThread thread signalTimeslot timeDiff peeks intention =>
    updateTime manager timeScaled signalTimeslot thread timeDiff ++
      (if peeks ∧ intention ≠ .toBeDisregarded then [.top] else []) ++
      onIntention manager timeScaled schedulerTimeslot thread intention
  | .onWrappedWaitingInterrupt thread interruptionTime => [.change thread (.setEstimatedRealTime interruptionTime)]
  | .onWrappedTimedWaitingInterrupt thread interruptionTime =>
    [.change thread (.setEstimatedRealTime interruptionTime),.update]
  | .onAnyReplacedWaitingInterrupt thread interruptionTime timeout =>
    [.change thread (.setEstimatedRealTime interruptionTime),
      if timeout ≠ 0 ∧ timeout ≠ -2 then .update else .push thread]
  | .getNextIfEqualsElseReturnTop lockedState kept => [.getNextIfEqualsElseReturnTop lockedState kept]
  | .setThreadToNextBiggestErt thread skipped => [.setThreadToNextBiggestErt thread skipped]
  | .invalidateExpiredIoPredictions predictions currentRealTime =>
    [.invalidateExpiredIoPredictions predictions currentRealTime]

/-- The time-scaled threads after the method has started. -/
def setTimeScalingFactor : Method Thread → Thread → Bool
  | .notifySchedulerForVirtualizedTime thread scaled => Function.update timeScaled thread scaled
  | _ => timeScaled

end Method

/-! ## Interleavings -/

/-- The queue, the time-scaled threads, and what each thread or scheduler has still to do of its method. -/
structure State (Thread Agent : Type*) where
  queue : Queue Thread
  timeScaled : Thread → Bool
  remaining : Agent → List (Access Thread)

inductive Event (Thread Agent : Type*)
  | start (agent : Agent) (schedulerTimeslot : Int) (method : Method Thread)
  | access (agent : Agent)

/-- What is left after the access; a thread that was found makes its update, another one its push. -/
def continuation (queue : Queue Thread) (rest : List (Access Thread)) : Access Thread → List (Access Thread)
  | .find thread => if thread ∈ queue.threads then .update :: rest else .push thread :: rest
  | _ => rest

section Steps
variable (algorithms : HeapAlgorithms Thread Int) (manager : ThreadManager)

def step (state : State Thread Agent) : Event Thread Agent → Option (State Thread Agent)
  | .start agent schedulerTimeslot method =>
    if (state.remaining agent).isEmpty then
      some { state with
        timeScaled := method.setTimeScalingFactor state.timeScaled
        remaining := Function.update state.remaining agent
          (method.body manager (method.setTimeScalingFactor state.timeScaled) schedulerTimeslot) }
    else none
  | .access agent => match state.remaining agent with
    | [] => none
    | access :: rest => some { state with
        queue := state.queue.perform algorithms access
        remaining := Function.update state.remaining agent (continuation state.queue rest access) }

def initial (estimatedRealTime : Thread → Int) : State Thread Agent where
  queue := ⟨[],estimatedRealTime⟩
  timeScaled _ := false
  remaining _ := []

/-- Each queue that the event reads as a heap is valid and its top has the least run time. -/
def ReadsValid (state : State Thread Agent) : Event Thread Agent → Prop
  | .start _ _ _ => True
  | .access agent => ∀ access ∈ (state.remaining agent).head?, ∀ queue ∈ state.queue.reads algorithms access, queue.Valid

end Steps

/-- Whether the thread is queued and its run time becomes another one. -/
def Queue.changes (queue : Queue Thread) (thread : Thread) (change : Change) : Bool :=
  thread ∈ queue.threads && change.apply (queue.estimatedRealTime thread) ≠ queue.estimatedRealTime thread

/-- Whether changes, if any, and then a rebuilt heap come next. -/
def restoring (threads : List Thread) : List (Access Thread) → Bool
  | .change _ _ :: rest => restoring threads rest
  | .update :: _ | .erase _ :: _ => true
  | .find thread :: _ => decide (thread ∈ threads)
  | _ => false

/-- Whether the next access may be made: the run time of a queued thread changes only where the same
    method rebuilds the heap next, and the queue is read as a heap only while nobody is about to
    rebuild it. Predictions are invalidated in queues that hold no thread twice. -/
def Permitted (state : State Thread Agent) : List (Access Thread) → Prop
  | .change thread change :: rest => state.queue.changes thread change → restoring state.queue.threads rest
  | .push _ :: _ | .top :: _ | .getNextIfEqualsElseReturnTop _ _ :: _ =>
    ∀ other, ¬ restoring state.queue.threads (state.remaining other)
  | .invalidateExpiredIoPredictions _ _ :: _ =>
    state.queue.threads.Nodup ∧ ∀ other, ¬ restoring state.queue.threads (state.remaining other)
  | _ => True

def Orderly (state : State Thread Agent) : Event Thread Agent → Prop
  | .start _ _ _ => True
  | .access agent => Permitted state (state.remaining agent)

instance decidablePermitted [Fintype Agent] (state : State Thread Agent) :
    (program : List (Access Thread)) → Decidable (Permitted state program)
  | .change thread change :: rest =>
    inferInstanceAs (Decidable (state.queue.changes thread change = true → restoring state.queue.threads rest = true))
  | .push _ :: _ | .top :: _ | .getNextIfEqualsElseReturnTop _ _ :: _ =>
    inferInstanceAs (Decidable (∀ other, ¬ restoring state.queue.threads (state.remaining other) = true))
  | .invalidateExpiredIoPredictions _ _ :: _ =>
    inferInstanceAs (Decidable (state.queue.threads.Nodup ∧
      ∀ other, ¬ restoring state.queue.threads (state.remaining other) = true))
  | [] | .update :: _ | .erase _ :: _ | .find _ :: _ | .setThreadToNextBiggestErt _ _ :: _ => .isTrue trivial

instance decidableOrderly [Fintype Agent] (state : State Thread Agent) :
    (event : Event Thread Agent) → Decidable (Orderly state event)
  | .start _ _ _ => .isTrue trivial
  | .access agent => inferInstanceAs (Decidable (Permitted state (state.remaining agent)))

/-! ## One access -/

namespace Queue
variable {algorithms : HeapAlgorithms Thread Int} {queue : Queue Thread}

theorem valid_iff : queue.Valid ↔ IsHeap queue.estimatedRealTime queue.threads := ⟨And.left,topLeast_of_isHeap⟩

theorem change_valid (valid : queue.Valid) {thread : Thread} (absent : thread ∉ queue.threads) (change : Change) :
    (queue.change thread change).Valid := by
  rw [valid_iff] at valid ⊢
  exact (isHeap_update absent _).mpr valid

private theorem change_valid_of_kept (valid : queue.Valid) {thread : Thread} {change : Change}
    (kept : ¬ queue.changes thread change) : (queue.change thread change).Valid := by
  by_cases queued : thread ∈ queue.threads
  · have same : change.apply (queue.estimatedRealTime thread) = queue.estimatedRealTime thread := by
      simpa [changes,queued] using kept
    rwa [Queue.change,same,Function.update_eq_self]
  · exact change_valid valid queued change

theorem push_valid (valid : queue.Valid) (thread : Thread) : (queue.push algorithms thread).Valid := by
  rw [valid_iff] at valid ⊢
  exact algorithms.pushHeap_isHeap thread valid

theorem pop_valid (valid : queue.Valid) : (queue.pop algorithms).Valid := by
  rw [valid_iff] at valid ⊢
  exact algorithms.popHeap_isHeap valid

theorem update_valid (queue : Queue Thread) : (queue.update algorithms).Valid := by
  rw [valid_iff]
  exact algorithms.makeHeap_isHeap _ _

private theorem getNext_valid (valid : queue.Valid) (lockedState : Thread) (kept : Bool) :
    (queue.getNextIfEqualsElseReturnTop algorithms lockedState kept).Valid := by
  unfold getNextIfEqualsElseReturnTop
  split
  · exact pop_valid valid
  · exact valid

/-- The heap is valid, holds no thread twice, and was valid wherever it was read. -/
structure Sound (invalidation : Invalidation Thread) : Prop where
  valid : invalidation.queue.Valid
  nodup : invalidation.queue.threads.Nodup
  reads : ∀ read ∈ invalidation.reads, read.Valid

section Invalidations
variable {invalidation : Invalidation Thread}

theorem top_sound (sound : Sound invalidation) : Sound invalidation.top :=
  ⟨sound.valid,sound.nodup,by simpa [Invalidation.top] using ⟨sound.valid,sound.reads⟩⟩

theorem pop_perm (sound : Sound invalidation) :
    (invalidation.pop algorithms).queue.threads.Perm invalidation.queue.threads.tail :=
  algorithms.popHeap_perm (valid_iff.mp sound.valid)

theorem pop_sound (sound : Sound invalidation) : Sound (invalidation.pop algorithms) where
  valid := pop_valid sound.valid
  nodup := (pop_perm sound).nodup_iff.mpr (sound.nodup.sublist (List.tail_sublist _))
  reads := by simpa [Invalidation.pop] using ⟨sound.valid,sound.reads⟩

theorem push_perm (sound : Sound invalidation) (thread : Thread) :
    (invalidation.push algorithms thread).queue.threads.Perm (thread :: invalidation.queue.threads) :=
  algorithms.pushHeap_perm thread (valid_iff.mp sound.valid)

theorem push_sound (sound : Sound invalidation) {thread : Thread} (absent : thread ∉ invalidation.queue.threads) :
    Sound (invalidation.push algorithms thread) where
  valid := push_valid sound.valid thread
  nodup := (push_perm sound thread).nodup_iff.mpr (List.nodup_cons.mpr ⟨absent,sound.nodup⟩)
  reads := by simpa [Invalidation.push] using ⟨sound.valid,sound.reads⟩

private theorem invalidateIoPrediction_sound (sound : Sound invalidation) {thread : Thread}
    (absent : thread ∉ invalidation.queue.threads) : Sound (invalidation.invalidateIoPrediction thread) :=
  ⟨change_valid sound.valid absent _,sound.nodup,sound.reads⟩

/-- By induction on the fuel: the thread whose prediction is extended has been popped, and the threads
    that the inner call pops are back in the queue when it returns. -/
theorem recursivelyUpdate_sound (currentRealTime : Int) (fuel : Nat) :
    ∀ (thread : Thread) (invalidation : Invalidation Thread), Sound invalidation →
      thread ∉ invalidation.queue.threads →
      Sound (invalidation.recursivelyUpdatePendingIoRequests algorithms currentRealTime fuel thread) ∧
      (invalidation.recursivelyUpdatePendingIoRequests algorithms currentRealTime fuel thread).queue.threads.Perm
        invalidation.queue.threads := by
  induction fuel with
  | zero =>
    intro thread invalidation sound absent
    exact ⟨invalidateIoPrediction_sound sound absent,.refl _⟩
  | succ fuel ih =>
    intro thread invalidation sound absent
    rw [Invalidation.recursivelyUpdatePendingIoRequests]
    split
    · exact ⟨invalidateIoPrediction_sound sound absent,.refl _⟩
    · next nextThread first =>
      obtain ⟨later,threads⟩ := List.head?_eq_some_iff.mp first
      have popped : Sound (invalidation.top.pop algorithms) := pop_sound (top_sound sound)
      have tail : (invalidation.top.pop algorithms).queue.threads.Perm later := by
        have perm := @pop_perm _ _ algorithms _ (top_sound sound)
        rwa [Invalidation.top,threads] at perm
      have outside : nextThread ∉ (invalidation.top.pop algorithms).queue.threads := by
        rw [tail.mem_iff]
        exact (List.nodup_cons.mp (threads ▸ sound.nodup)).1
      obtain ⟨inner,innerPerm⟩ := ih nextThread _ popped outside
      have stillOutside := mt innerPerm.mem_iff.mp outside
      simp only []
      split
      · have pushed := @push_sound _ _ algorithms _ inner _ stillOutside
        have restored := (@push_perm _ _ algorithms _ inner nextThread).trans ((innerPerm.trans tail).cons nextThread)
        rw [← threads] at restored
        exact ⟨invalidateIoPrediction_sound pushed (mt restored.mem_iff.mp absent),restored⟩
      · exact ⟨invalidateIoPrediction_sound (top_sound sound) absent,.refl _⟩

end Invalidations

theorem invalidateExpired_sound (valid : queue.Valid) (nodup : queue.threads.Nodup)
    (predictions : Thread → IoPrediction) (currentRealTime : Int) :
    Sound (queue.invalidateExpiredIoPredictions algorithms predictions currentRealTime) := by
  have sound : Sound ⟨queue,predictions,[]⟩ := ⟨valid,nodup,by simp⟩
  unfold invalidateExpiredIoPredictions
  simp only []
  split
  · exact sound
  · next thread first =>
    obtain ⟨later,threads⟩ := List.head?_eq_some_iff.mp first
    have tail := @pop_perm _ _ algorithms _ (top_sound sound)
    have outside : thread ∉ ((Invalidation.top ⟨queue,predictions,[]⟩).pop algorithms).queue.threads := by
      rw [tail.mem_iff]
      simp only [Invalidation.top,threads,List.tail_cons]
      exact (List.nodup_cons.mp (threads ▸ nodup)).1
    obtain ⟨inner,perm⟩ := recursivelyUpdate_sound currentRealTime queue.threads.length thread _
      (pop_sound (top_sound sound)) outside
    exact push_sound inner (mt perm.mem_iff.mp outside)

end Queue

/-! ## Runs -/

section Runs
variable {algorithms : HeapAlgorithms Thread Int} {manager : ThreadManager} {state next : State Thread Agent}

/-- The heap is valid unless somebody is about to rebuild it. -/
private def Settled (state : State Thread Agent) : Prop :=
  state.queue.Valid ∨ ∃ agent, restoring state.queue.threads (state.remaining agent) = true

private theorem settled_valid (settled : Settled state)
    (nobody : ∀ other, ¬ restoring state.queue.threads (state.remaining other)) : state.queue.Valid :=
  settled.resolve_right fun ⟨agent,restores⟩ => nobody agent restores

/-- What is left of the other programs stays, and the agent itself was not about to rebuild the heap. -/
private theorem settled_of_same (settled : Settled state) {agent : Agent} {rest : List (Access Thread)}
    (idle : ¬ restoring state.queue.threads (state.remaining agent)) (timeScaled : Thread → Bool) :
    Settled ⟨state.queue,timeScaled,Function.update state.remaining agent rest⟩ := by
  refine settled.imp_right fun ⟨other,restores⟩ => ⟨other,?_⟩
  have different : other ≠ agent := by
    rintro rfl
    exact idle restores
  simpa only [Function.update_of_ne different] using restores

private theorem step_settled {event : Event Thread Agent} (settled : Settled state) (orderly : Orderly state event)
    (stepped : step algorithms manager state event = some next) : Settled next := by
  cases event with
  | start agent schedulerTimeslot method =>
    simp only [step,Option.ite_none_right_eq_some,Option.some.injEq] at stepped
    obtain ⟨finished,rfl⟩ := stepped
    refine settled_of_same settled ?_ _
    rw [List.isEmpty_iff.mp finished]
    exact Bool.false_ne_true
  | access agent =>
    simp only [step] at stepped
    split at stepped
    · cases stepped
    next access rest program =>
    simp only [Option.some.injEq] at stepped
    subst stepped
    rw [Orderly,program] at orderly
    cases access with
    | change thread change =>
      by_cases changes : state.queue.changes thread change = true
      · refine .inr ⟨agent,?_⟩
        simp only [Function.update_self]
        exact orderly changes
      · refine settled.imp (fun valid => Queue.change_valid_of_kept valid changes) fun ⟨other,restores⟩ => ⟨other,?_⟩
        by_cases own : other = agent
        · subst own
          rw [program] at restores
          simp only [Function.update_self]
          exact restores
        · simp only [Function.update_of_ne own]
          exact restores
    | push thread => exact .inl (Queue.push_valid (settled_valid settled orderly) thread)
    | update => exact .inl (Queue.update_valid _)
    | erase thread => exact .inl (Queue.update_valid _)
    | find thread =>
      refine settled.imp_right fun ⟨other,restores⟩ => ⟨other,?_⟩
      by_cases own : other = agent
      · subst own
        have found : thread ∈ state.queue.threads := by simpa [program,restoring] using restores
        simp only [Function.update_self,continuation,if_pos found]
        rfl
      · simp only [Function.update_of_ne own]
        exact restores
    | top =>
      have valid : state.queue.Valid := settled_valid settled orderly
      exact .inl valid
    | getNextIfEqualsElseReturnTop lockedState kept =>
      exact .inl (Queue.getNext_valid (settled_valid settled orderly) lockedState kept)
    | setThreadToNextBiggestErt thread skipped =>
      simp only [Queue.perform,Queue.setThreadToNextBiggestErt]
      split
      · exact .inl (Queue.update_valid _)
      · refine settled_of_same settled ?_ state.timeScaled
        rw [program]
        exact Bool.false_ne_true
    | invalidateExpiredIoPredictions predictions currentRealTime =>
      exact .inl (Queue.invalidateExpired_sound (settled_valid settled orderly.2) orderly.1 _ _).valid

private theorem reads_valid {event : Event Thread Agent} (settled : Settled state) (orderly : Orderly state event) :
    ReadsValid algorithms state event := by
  cases event with
  | start agent schedulerTimeslot method => trivial
  | access agent =>
    intro access first queue read
    obtain ⟨rest,program⟩ := List.head?_eq_some_iff.mp first
    rw [Orderly,program] at orderly
    cases access with
    | push thread | top | getNextIfEqualsElseReturnTop lockedState kept =>
      rw [List.mem_singleton.mp read]
      exact settled_valid settled orderly
    | invalidateExpiredIoPredictions predictions currentRealTime =>
      exact (Queue.invalidateExpired_sound (settled_valid settled orderly.2) orderly.1 _ _).reads queue read
    | change thread change | update | erase thread | find thread | setThreadToNextBiggestErt thread skipped =>
      exact absurd read List.not_mem_nil

/-- In every run of orderly steps, in any interleaving of any threads and schedulers, the queue is a valid
    heap with a thread of least estimated run time on top wherever it is popped, peeked at or pushed into. -/
theorem heap_valid_when_read (algorithms : HeapAlgorithms Thread Int) (manager : ThreadManager)
    (estimatedRealTime : Thread → Int) (events : List (Event Thread Agent))
    (orderly : Runs.Meets (step algorithms manager) Orderly (initial estimatedRealTime) events) :
    Runs.Meets (step algorithms manager) (ReadsValid algorithms) (initial estimatedRealTime) events := by
  have start : Settled (initial estimatedRealTime : State Thread Agent) := .inl (topLeast_of_isHeap isHeap_nil)
  exact Runs.meets_of_invariant (fun _ _ _ inv holds stepped => step_settled inv holds stepped)
    (fun _ _ inv holds => reads_valid inv holds) start orderly

/-- Threads 0 and 1 on two cores: 0 suspends itself, 1 is time-scaled for a while, and 0 is interrupted and
    popped while 1 blocks the queue. -/
private def blockedQueue : List (Event Nat Bool) :=
  [.start true 100 (.setSuspendedAndPushToRunnables 0 false),.access true,
    .start false 100 (.notifySchedulerForVirtualizedTime 1 true),.start false 100 (.setRunningThread 1 5),
    .access false,.access false,.access false,.access false,
    .start true 100 (.onWrappedTimedWaitingInterrupt 0 7),.access true,.access true,
    .start true 100 (.getNextIfEqualsElseReturnTop 0 false),.access true,
    .start false 100 (.notifySchedulerForVirtualizedTime 1 false),.access false,.access false]

theorem blocked_queue_valid : (Runs.run (step .ascending .looseParallel) (initial fun _ => 0) blockedQueue).isSome = true ∧
    Runs.Meets (step .ascending .looseParallel) (ReadsValid .ascending) (initial fun _ => 0) blockedQueue :=
  ⟨by decide,heap_valid_when_read .ascending .looseParallel (fun _ => 0) blockedQueue (by decide)⟩

/-- A time-scaled thread that has made progress takes its barrier off when it is signalled, and looks at the
    top of the queue before its manager rebuilds the heap. -/
theorem signalled_blocker_misplaced : ¬ ∀ (algorithms : HeapAlgorithms Nat Int) (manager : ThreadManager)
    (estimatedRealTime : Nat → Int) (events : List (Event Nat Bool)),
    Runs.Meets (step algorithms manager) (ReadsValid algorithms) (initial estimatedRealTime) events := by
  intro claimed
  have reads := claimed .ascending .looseParallel (fun thread => if thread = 0 then 105 else 10)
    ([.start true 100 (.setSuspendedAndPushToRunnables 0 false),.access true,
      .start false 100 (.notifySchedulerForVirtualizedTime 1 true),.start false 100 (.setRunningThread 1 10),
      .access false,.access false,.access false,.access false,
      .start true 100 (.suspendThread 1 100 5 true .toKeepOnRunning),.access true,.access true] ++ [.access true])
  obtain ⟨valid,-⟩ := Runs.meets_of_append reads rfl
  have least := (valid .top rfl _ (List.mem_singleton.mpr rfl)).2 0 rfl 1 (by decide)
  exact absurd least (by decide)

end Runs

end Vexjine.ThreadQueue
