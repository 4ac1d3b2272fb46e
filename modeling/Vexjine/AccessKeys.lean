import Vexjine.LockPrograms

/-!
# The access keys in the event handlers

Each event handler as the operations on access keys along one path through it.
A path says how often the thread blocks, whether it enters from native waiting,
and which other threads the handler finds; everything else a handler does takes
no access key. The handlers call the helpers of the thread's state and of its
manager as the sources do.
-/

namespace Vexjine.AccessKeys
open Vexjine.LockPrograms (Operation)
set_option linter.unusedSimpArgs false

variable {Thread : Type*}

/-! ## The thread's manager -/

def onBlockedWaitingInVex (state : Thread) : List (Operation Thread) := [.unlock state,.lock state]

/-- The function and `setRunningThread` call each other until the thread has a core: it blocks the
    given number of times, which is 0 where it goes on at once. -/
def suspendCurrentThread (state : Thread) (blocks : Nat) : List (Operation Thread) :=
  (List.replicate blocks (onBlockedWaitingInVex state)).flatten

/-- Suspends the thread, and blocks it, only where another one has the core. -/
def setRunningThread (state : Thread) (blocks : Nat) : List (Operation Thread) := suspendCurrentThread state blocks

def blockCurrentThread (state : Thread) (blocks : Nat) : List (Operation Thread) :=
  onBlockedWaitingInVex state ++ setRunningThread state blocks

/-- A path through `suspendLooseCurrentThread`. -/
structure Loose where
  runnableThreadsEmpty : Bool
  blocks : Nat
  deriving DecidableEq

def suspendLooseCurrentThread (state : Thread) (path : Loose) : List (Operation Thread) :=
  if path.runnableThreadsEmpty then setRunningThread state path.blocks else blockCurrentThread state path.blocks

/-- Suspends the thread as often as it finds it without a manager. -/
def getCurrentlyControllingManagerOf (state : Thread) (loose : List Loose) : List (Operation Thread) :=
  loose.flatMap (suspendLooseCurrentThread state)

namespace ThreadManager

def onReplacedWaiting (state : Thread) (blocks : Nat) : List (Operation Thread) :=
  onBlockedWaitingInVex state ++ setRunningThread state blocks

def onReplacedTimedWaiting (state : Thread) (blocks : Nat) : List (Operation Thread) :=
  onBlockedWaitingInVex state ++ setRunningThread state blocks

def onWrappedTimedWaitingEnd (state : Thread) (blocks : Nat) : List (Operation Thread) :=
  onBlockedWaitingInVex state ++ setRunningThread state blocks

def onWrappedWaitingEnd (state : Thread) (blocks : Nat) : List (Operation Thread) := suspendCurrentThread state blocks

def onThreadYield (state : Thread) (blocks : Nat) : List (Operation Thread) := suspendCurrentThread state blocks

/-- The scaling of a thread's time may end or take its core, which suspends it. -/
def notifySchedulerForVirtualizedTime (state : Thread) (blocks : Nat) : List (Operation Thread) :=
  setRunningThread state blocks

end ThreadManager

/-! ## The thread's state -/

/-- All three exits free the key; they differ in the clocks they move. -/
def onVexExit (state : Thread) : List (Operation Thread) := [.unlock state]

namespace ThreadManager

def onThreadSpawn (state : Thread) (blocks : Nat) : List (Operation Thread) :=
  [.lock state] ++ suspendCurrentThread state blocks ++ onVexExit state

def onThreadEnd (state : Thread) : List (Operation Thread) := onVexExit state

end ThreadManager

/-- `none` for a thread that is running and has a manager. -/
def ensureThreadIsNotInNativeWaitingStateWhenEnteringVex (state : Thread) : Option Loose → List (Operation Thread)
  | none => []
  | some path => [.lock state] ++ suspendLooseCurrentThread state path ++ [.unlock state]

/-- All entries but `onWrappedWaitingEnd`'s and `onWrappedTimedWaitingEnd`'s. -/
def onVexEntry (state : Thread) (entry : Option Loose) : List (Operation Thread) :=
  ensureThreadIsNotInNativeWaitingStateWhenEnteringVex state entry ++ [.lock state]

namespace VexThreadState

def onWrappedWaitingStart (state : Thread) (entry : Option Loose) : List (Operation Thread) :=
  onVexEntry state entry ++ onVexExit state

def onWrappedWaitingEnd (state : Thread) (blocks : Nat) : List (Operation Thread) :=
  [.lock state] ++ ThreadManager.onWrappedWaitingEnd state blocks ++ onVexExit state

def onWrappedTimedWaitingStart (state : Thread) (loose : List Loose) : List (Operation Thread) :=
  getCurrentlyControllingManagerOf state loose ++ onVexExit state

def onWrappedTimedWaitingEnd (state : Thread) (loose : List Loose) (blocks : Nat) : List (Operation Thread) :=
  [.lock state] ++ getCurrentlyControllingManagerOf state loose ++
    ThreadManager.onWrappedTimedWaitingEnd state blocks ++ onVexExit state

/-- Returns with the key held. -/
def onReplacedTimedWaiting (state : Thread) (entry : Option Loose) (blocks : Nat) : List (Operation Thread) :=
  onVexEntry state entry ++ ThreadManager.onReplacedTimedWaiting state blocks

/-- Returns with the key held. -/
def onReplacedWaiting (state : Thread) (entry : Option Loose) (blocks : Nat) : List (Operation Thread) :=
  onVexEntry state entry ++ ThreadManager.onReplacedWaiting state blocks

def onInvocationPoint (state : Thread) (entry : Option Loose) (loose : List Loose) (blocks : Nat) : List (Operation Thread) :=
  onVexEntry state entry ++ getCurrentlyControllingManagerOf state loose ++ suspendCurrentThread state blocks ++ onVexExit state

def onYield (state : Thread) (entry : Option Loose) (loose : List Loose) (blocks : Nat) : List (Operation Thread) :=
  onVexEntry state entry ++ getCurrentlyControllingManagerOf state loose ++ ThreadManager.onThreadYield state blocks ++
    onVexExit state

end VexThreadState

/-- The branches of the scheduler's signal handler. -/
inductive SignalPath
  | modelPolled
  | staysNativeWaiting
  | leavesNativeWaiting (path : Loose)
  | withoutManager
  | becomesNativeWaiting
  | suspends (blocks : Nat)
  | keepsOnRunning
  deriving DecidableEq

def VexThreadState.onSignalledFromScheduler (state : Thread) : SignalPath → List (Operation Thread)
  | .leavesNativeWaiting path => suspendLooseCurrentThread state path ++ [.unlock state]
  -- blocks before it takes the key, with the lock it was created with
  | .suspends blocks => [.lock state] ++ setRunningThread state blocks ++ [.unlock state]
  | .modelPolled | .staysNativeWaiting | .withoutManager | .becomesNativeWaiting | .keepsOnRunning => []

/-- The sections that only protect an allocation or a count. -/
def protectedSections (state : Thread) (sections : Nat) : List (Operation Thread) :=
  (List.replicate sections [.lock state,.unlock state]).flatten

/-! ## The event handlers -/

/-- `none` where the lock was free. -/
def onLocklessRequestingLock (state : Thread) : Option Nat → List (Operation Thread)
  | none => []
  | some blocks => ThreadManager.onReplacedWaiting state blocks

/-- The key of the thread that gets the lock. -/
def onLocklessReleasingLock : Option Thread → List (Operation Thread)
  | none => []
  | some threadBlockedOnMonitor => [.lock threadBlockedOnMonitor,.unlock threadBlockedOnMonitor]

inductive ParkPath
  | alreadyUnparked
  | timed (loose : List Loose)
  | untimed (entry : Option Loose)
  deriving DecidableEq

inductive ParkedPath
  | timed (loose : List Loose) (blocks : Nat)
  | untimed (blocks : Nat)
  deriving DecidableEq

/-- A handler with the path taken through it. -/
inductive Handler (Thread : Type*)
  | onStart (blocks : Nat)
  | onWrappedWaitingStart (entry : Option Loose)
  | onWrappedWaitingEnd (blocks : Nat)
  | onWrappedTimedWaitingStart (entry : Option Loose) (loose : List Loose)
  | onWrappedTimedWaitingEnd (loose : List Loose) (blocks : Nat)
  | onWrappedTimedWaitingInterrupt (entry : Option Loose) (waiting : List (List Loose × Option Thread))
  | beforeReleasingLockOfAnyReplacedWaiting (entry : Option Loose) (threadBlockedOnMonitor : Option Thread)
  | onReplacedTimedWaiting (entry : Option Loose) (blocks : Nat) (request : Option Nat)
  | onReplacedWaiting (entry : Option Loose) (blocks : Nat) (request : Option Nat)
  | onSleep (entry : Option Loose) (blocks : Nat)
  | onSignallingOnObject (entry : Option Loose)
  | onBroadcastingOnObject (entry : Option Loose)
  | onInterrupt (entry : Option Loose)
  | onRequestingLock (entry : Option Loose) (request : Option Nat)
  | onReleasingLock (entry : Option Loose) (threadBlockedOnMonitor : Option Thread)
  | onJoin (entry : Option Loose) (loose : List Loose) (rounds : List (Nat × List Loose))
  | onPark (entry : Option Loose) (path : ParkPath)
  | onParked (path : ParkedPath)
  | onUnpark (entry : Option Loose) (threadToUnpark : Option Thread) (loose : List Loose)
  | beforeCreatingThread (entry : Option Loose) (loose : List Loose)
  | afterCreatingThread (entry : Option Loose) (loose : List Loose)
  | onInteractionPoint (entry : Option Loose) (loose : List Loose) (blocks : Nat)
  | onYield (entry : Option Loose) (loose : List Loose) (blocks : Nat)
  | onEnd (entry : Option Loose) (loose : List Loose)
  | getTime (usingVtfScheduler : Bool) (loose : List Loose)
  | ensureThreadIsNotInNativeWaitingStateWhenEnteringVex (entry : Option Loose)
  | onVexMethodEntry (entry : Option Loose) (scaling : Option Nat) (sections : Nat)
  | onVexMethodExit (entry : Option Loose) (scaling : Option Nat) (sections : Nat)
  | onVexIoMethodEntry (entry : Option Loose)
  | onIoStart (suspends : Option Nat) (sections : Nat)
  | onIoEnd (suspends : Nat) (loose : Option Loose) (sections : Nat)
  | onSynchronizeOnModelExit (sections : Nat) (suspends : Loose ⊕ Nat)
  | onSignalledFromScheduler (path : SignalPath)

/-- A scaling of the thread's time that starts or ends. -/
def changeScaling (state : Thread) : Option Nat → List (Operation Thread)
  | none => []
  | some blocks => [.lock state] ++ ThreadManager.notifySchedulerForVirtualizedTime state blocks ++ [.unlock state]

def Handler.operations (state : Thread) : Handler Thread → List (Operation Thread)
  | .onStart blocks => ThreadManager.onThreadSpawn state blocks
  | .onWrappedWaitingStart entry => VexThreadState.onWrappedWaitingStart state entry
  | .onWrappedWaitingEnd blocks => VexThreadState.onWrappedWaitingEnd state blocks
  | .onWrappedTimedWaitingStart entry loose => onVexEntry state entry ++ VexThreadState.onWrappedTimedWaitingStart state loose
  | .onWrappedTimedWaitingEnd loose blocks => VexThreadState.onWrappedTimedWaitingEnd state loose blocks
  | .onWrappedTimedWaitingInterrupt entry waiting =>
    onVexEntry state entry ++ waiting.flatMap (fun next => getCurrentlyControllingManagerOf state next.1 ++
      -- only a thread that is found and waits
      match next.2 with
      | none => []
      | some threadToInterrupt => [.lock threadToInterrupt,.unlock threadToInterrupt]) ++ onVexExit state
  | .beforeReleasingLockOfAnyReplacedWaiting entry threadBlockedOnMonitor =>
    onVexEntry state entry ++ onLocklessReleasingLock threadBlockedOnMonitor ++ onVexExit state
  | .onReplacedTimedWaiting entry blocks request =>
    VexThreadState.onReplacedTimedWaiting state entry blocks ++ onLocklessRequestingLock state request ++ onVexExit state
  | .onReplacedWaiting entry blocks request =>
    VexThreadState.onReplacedWaiting state entry blocks ++ onLocklessRequestingLock state request ++ onVexExit state
  | .onSleep entry blocks => VexThreadState.onReplacedTimedWaiting state entry blocks ++ onVexExit state
  | .onSignallingOnObject entry | .onBroadcastingOnObject entry | .onInterrupt entry =>
    onVexEntry state entry ++ onVexExit state
  | .onRequestingLock entry request => onVexEntry state entry ++ onLocklessRequestingLock state request ++ onVexExit state
  | .onReleasingLock entry threadBlockedOnMonitor =>
    onVexEntry state entry ++ onLocklessReleasingLock threadBlockedOnMonitor ++ onVexExit state
  | .onJoin entry loose rounds =>
    onVexEntry state entry ++ getCurrentlyControllingManagerOf state loose ++
      rounds.flatMap (fun round => suspendCurrentThread state round.1 ++ getCurrentlyControllingManagerOf state round.2) ++
      onVexExit state
  | .onPark entry path =>
    onVexEntry state entry ++ match path with
      | .alreadyUnparked => onVexExit state
      | .timed loose => VexThreadState.onWrappedTimedWaitingStart state loose
      | .untimed again => [.unlock state] ++ VexThreadState.onWrappedWaitingStart state again ++ onVexExit state
  | .onParked path => match path with
    | .timed loose blocks => VexThreadState.onWrappedTimedWaitingEnd state loose blocks
    | .untimed blocks => VexThreadState.onWrappedWaitingEnd state blocks
  | .onUnpark entry threadToUnpark loose =>
    onVexEntry state entry ++ (match threadToUnpark with
      | none => []
      | some unparked => [.lock unparked] ++ getCurrentlyControllingManagerOf state loose ++ [.unlock unparked]) ++
      onVexExit state
  | .beforeCreatingThread entry loose | .afterCreatingThread entry loose =>
    onVexEntry state entry ++ getCurrentlyControllingManagerOf state loose ++ onVexExit state
  | .onInteractionPoint entry loose blocks => VexThreadState.onInvocationPoint state entry loose blocks
  | .onYield entry loose blocks => VexThreadState.onYield state entry loose blocks
  | .onEnd entry loose =>
    onVexEntry state entry ++ getCurrentlyControllingManagerOf state loose ++ ThreadManager.onThreadEnd state
  | .getTime usingVtfScheduler loose =>
    if usingVtfScheduler then [] else [.lock state] ++ getCurrentlyControllingManagerOf state loose ++ [.unlock state]
  | .ensureThreadIsNotInNativeWaitingStateWhenEnteringVex entry | .onVexIoMethodEntry entry =>
    AccessKeys.ensureThreadIsNotInNativeWaitingStateWhenEnteringVex state entry
  | .onVexMethodEntry entry scaling sections | .onVexMethodExit entry scaling sections =>
    AccessKeys.ensureThreadIsNotInNativeWaitingStateWhenEnteringVex state entry ++ changeScaling state scaling ++
      protectedSections state sections
  -- the lax and the normal protocol may suspend the thread before its I/O, the serial one does not
  | .onIoStart suspends sections =>
    protectedSections state sections ++ [.lock state] ++ suspendCurrentThread state (suspends.getD 0) ++ onVexExit state
  | .onIoEnd suspends loose sections =>
    [.lock state] ++ suspendCurrentThread state suspends ++ getCurrentlyControllingManagerOf state loose.toList ++
      [.unlock state] ++ protectedSections state sections
  | .onSynchronizeOnModelExit sections suspends =>
    protectedSections state sections ++ [.lock state] ++ (match suspends with
      | .inl path => suspendLooseCurrentThread state path
      | .inr blocks => suspendCurrentThread state blocks) ++ [.unlock state]
  | .onSignalledFromScheduler path => VexThreadState.onSignalledFromScheduler state path

/-! ## Readings of the operations -/

section Readings

/-- A way to read operations of a thread from left to right, which tells two situations of its own
    key apart: one where the thread has not locked it and one where it has. -/
structure Reading (Situation : Type*) (state : Thread) where
  read : Situation → List (Operation Thread) → Option Situation
  nil : ∀ situation, read situation [] = some situation
  append : ∀ situation first second,
    read situation (first ++ second) = (read situation first).bind fun middle => read middle second
  without : Situation
  holding : Situation
  lock : read without [.lock state] = some holding
  unlock : read holding [.unlock state] = some without

attribute [simp] Reading.nil Reading.append Reading.lock Reading.unlock

namespace Reading
variable {Situation : Type*} {state : Thread} (reading : Reading Situation state)

@[simp] theorem lock_cons (rest : List (Operation Thread)) :
    reading.read reading.without (.lock state :: rest) = reading.read reading.holding rest := by
  rw [← List.singleton_append,reading.append,reading.lock,Option.bind_some]

@[simp] theorem unlock_cons (rest : List (Operation Thread)) :
    reading.read reading.holding (.unlock state :: rest) = reading.read reading.without rest := by
  rw [← List.singleton_append,reading.append,reading.unlock,Option.bind_some]

/-- Operations that can be repeated in a situation. -/
theorem flatMap {Path : Type*} (situation : Situation) (operations : Path → List (Operation Thread)) (paths : List Path)
    (each : ∀ path ∈ paths, reading.read situation (operations path) = some situation) :
    reading.read situation (paths.flatMap operations) = some situation := by
  induction paths with
  | nil => exact reading.nil situation
  | cons path rest ih =>
    rw [List.flatMap_cons,reading.append,each path (by simp)]
    exact ih fun other member => each other (by simp [member])

@[simp] theorem blocked : reading.read reading.holding (onBlockedWaitingInVex state) = some reading.holding := by
  simp [onBlockedWaitingInVex]

@[simp] theorem suspended (blocks : Nat) :
    reading.read reading.holding (suspendCurrentThread state blocks) = some reading.holding := by
  induction blocks with
  | zero => exact reading.nil _
  | succ blocks ih =>
    rw [suspendCurrentThread,List.replicate_succ,List.flatten_cons,reading.append,reading.blocked]
    exact ih

@[simp] theorem running (blocks : Nat) :
    reading.read reading.holding (setRunningThread state blocks) = some reading.holding := reading.suspended blocks

@[simp] theorem loose (path : Loose) :
    reading.read reading.holding (suspendLooseCurrentThread state path) = some reading.holding := by
  unfold suspendLooseCurrentThread
  split
  · exact reading.running path.blocks
  · simp [blockCurrentThread]

@[simp] theorem manager (paths : List Loose) :
    reading.read reading.holding (getCurrentlyControllingManagerOf state paths) = some reading.holding :=
  reading.flatMap _ _ paths fun path _ => reading.loose path

@[simp] theorem ensured (entry : Option Loose) :
    reading.read reading.without (ensureThreadIsNotInNativeWaitingStateWhenEnteringVex state entry) =
      some reading.without := by
  cases entry with
  | none => exact reading.nil _
  | some path => simp [ensureThreadIsNotInNativeWaitingStateWhenEnteringVex]

@[simp] theorem entered (entry : Option Loose) :
    reading.read reading.without (onVexEntry state entry) = some reading.holding := by
  simp [onVexEntry]

@[simp] theorem exited : reading.read reading.holding (onVexExit state) = some reading.without := reading.unlock

@[simp] theorem requested (request : Option Nat) :
    reading.read reading.holding (onLocklessRequestingLock state request) = some reading.holding := by
  cases request with
  | none => exact reading.nil _
  | some blocks => simp [onLocklessRequestingLock,ThreadManager.onReplacedWaiting]

@[simp] theorem sections (sections : Nat) :
    reading.read reading.without (protectedSections state sections) = some reading.without := by
  induction sections with
  | zero => exact reading.nil _
  | succ sections ih =>
    rw [protectedSections,List.replicate_succ,List.flatten_cons,reading.append,reading.lock_cons,reading.unlock]
    exact ih

@[simp] theorem scaled (scaling : Option Nat) :
    reading.read reading.without (changeScaling state scaling) = some reading.without := by
  cases scaling with
  | none => exact reading.nil _
  | some blocks => simp [changeScaling,ThreadManager.notifySchedulerForVirtualizedTime]

end Reading

/-- The threads whose keys a handler takes beside the one of its own thread. -/
def Handler.targets : Handler Thread → List Thread
  | .onUnpark _ threadToUnpark _ => threadToUnpark.toList
  | .onReleasingLock _ threadBlockedOnMonitor | .beforeReleasingLockOfAnyReplacedWaiting _ threadBlockedOnMonitor =>
    threadBlockedOnMonitor.toList
  | .onWrappedTimedWaitingInterrupt _ waiting => waiting.filterMap Prod.snd
  | _ => []

/-- The paths that free the thread's own key where it was not taken: an untimed park without a pending
    permit, and the return of a native waiting thread from its poll. -/
def Handler.Unbalanced : Handler Thread → Prop
  | .onPark _ (.untimed _) | .onSignalledFromScheduler (.leavesNativeWaiting _) => True
  | _ => False

/-- A handler whose path frees only what was taken is balanced in every reading in which taking and
    freeing a second key, with what may come between, is. -/
theorem Reading.balanced {Situation : Type*} {state : Thread} (reading : Reading Situation state) (handler : Handler Thread)
    (second : ∀ other ∈ handler.targets, ∀ loose, reading.read reading.holding
      ([.lock other] ++ getCurrentlyControllingManagerOf state loose ++ [.unlock other]) = some reading.holding)
    (balanced : ¬ handler.Unbalanced) :
    reading.read reading.without (handler.operations state) = some reading.without := by
  cases handler with
  | onSignalledFromScheduler path =>
    cases path with
    | leavesNativeWaiting path => exact absurd trivial balanced
    | _ => simp [Handler.operations,VexThreadState.onSignalledFromScheduler]
  | onPark entry path =>
    cases path with
    | untimed again => exact absurd trivial balanced
    | _ => simp [Handler.operations,VexThreadState.onWrappedTimedWaitingStart]
  | onParked path =>
    cases path with
    | _ =>
      simp [Handler.operations,VexThreadState.onWrappedTimedWaitingEnd,VexThreadState.onWrappedWaitingEnd,
        ThreadManager.onWrappedTimedWaitingEnd,ThreadManager.onWrappedWaitingEnd]
  | onUnpark entry threadToUnpark loose =>
    cases threadToUnpark with
    | none => simp [Handler.operations]
    | some other =>
      have taken := second other (by simp [Handler.targets]) loose
      rw [Handler.operations,reading.append,reading.append,reading.entered,Option.bind_some,taken,Option.bind_some,
        reading.exited]
  | onWrappedTimedWaitingInterrupt entry waiting =>
    have each : reading.read reading.holding (waiting.flatMap fun next => getCurrentlyControllingManagerOf state next.1 ++
        match next.2 with
        | none => []
        | some threadToInterrupt => [.lock threadToInterrupt,.unlock threadToInterrupt]) = some reading.holding := by
      refine reading.flatMap _ _ waiting fun next member => ?_
      rw [reading.append,reading.manager,Option.bind_some]
      cases found : next.2 with
      | none => exact reading.nil _
      | some other => exact second other (List.mem_filterMap.mpr ⟨next,member,found⟩) []
    rw [Handler.operations,reading.append,reading.append,reading.entered,Option.bind_some,each,Option.bind_some,reading.exited]
  | onReleasingLock entry other | beforeReleasingLockOfAnyReplacedWaiting entry other =>
    cases other with
    | none => simp [Handler.operations,onLocklessReleasingLock]
    | some other =>
      have taken := second other (by simp [Handler.targets]) []
      rw [Handler.operations,reading.append,reading.append,reading.entered,Option.bind_some]
      exact (congrArg (·.bind fun middle => reading.read middle (onVexExit state)) taken).trans reading.exited
  | onSynchronizeOnModelExit sections suspends =>
    cases suspends with
    | _ => simp [Handler.operations]
  | onJoin entry loose rounds =>
    have each : reading.read reading.holding (rounds.flatMap fun round =>
        suspendCurrentThread state round.1 ++ getCurrentlyControllingManagerOf state round.2) = some reading.holding :=
      reading.flatMap _ _ rounds fun round _ => by simp
    simp [Handler.operations,each]
  | getTime usingVtfScheduler loose =>
    cases usingVtfScheduler with
    | _ => simp [Handler.operations]
  | _ =>
    simp [Handler.operations,VexThreadState.onWrappedTimedWaitingEnd,VexThreadState.onWrappedWaitingEnd,
      VexThreadState.onWrappedTimedWaitingStart,VexThreadState.onWrappedWaitingStart,VexThreadState.onReplacedTimedWaiting,
      VexThreadState.onReplacedWaiting,VexThreadState.onInvocationPoint,VexThreadState.onYield,ThreadManager.onThreadSpawn,
      ThreadManager.onThreadEnd,ThreadManager.onReplacedTimedWaiting,ThreadManager.onReplacedWaiting,
      ThreadManager.onWrappedTimedWaitingEnd,ThreadManager.onWrappedWaitingEnd,ThreadManager.onThreadYield]

end Readings

/-! ## The discipline of a thread's own key -/

section Discipline
variable [DecidableEq Thread]

/-- Whether the key is held after the operations, from whether it was held before; `none` where it
    is locked while held or unlocked while not. -/
def disciplined (key : Thread) : Bool → List (Operation Thread) → Option Bool
  | held, [] => some held
  | held, .lock other :: rest | held, .timedLock other :: rest =>
    if other = key then if held then none else disciplined key true rest else disciplined key held rest
  | held, .unlock other :: rest =>
    if other = key then if held then disciplined key false rest else none else disciplined key held rest

/-- Started without its own key, the thread locks it only while it does not hold it, unlocks it only
    while it does, and returns without it. -/
def KeepsDiscipline (state : Thread) (handler : Handler Thread) : Prop :=
  disciplined state false (handler.operations state) = some false

instance (state : Thread) (handler : Handler Thread) : Decidable (KeepsDiscipline state handler) :=
  inferInstanceAs (Decidable (_ = _))

private theorem disciplined_append (key : Thread) (held : Bool) (first second : List (Operation Thread)) :
    disciplined key held (first ++ second) =
      (disciplined key held first).bind fun middle => disciplined key middle second := by
  induction first generalizing held with
  | nil => rfl
  | cons operation rest ih =>
    cases operation with
    | lock other | timedLock other | unlock other =>
      simp only [List.cons_append,disciplined]
      split
      · split
        · first | rfl | exact ih _
        · first | rfl | exact ih _
      · exact ih _

/-- The strict reading of the own key. -/
def ownKey (state : Thread) : Reading Bool state where
  read := disciplined state
  nil _ := rfl
  append := disciplined_append state
  without := false
  holding := true
  lock := by simp [disciplined]
  unlock := by simp [disciplined]

private theorem disciplined_second {state other : Thread} (different : other ≠ state) (loose : List Loose) :
    disciplined state true ([.lock other] ++ getCurrentlyControllingManagerOf state loose ++ [.unlock other]) = some true := by
  have locked : disciplined state true [.lock other] = some true := by simp [disciplined,different]
  have manager : disciplined state true (getCurrentlyControllingManagerOf state loose) = some true :=
    (ownKey state).manager loose
  rw [disciplined_append,disciplined_append,locked,Option.bind_some,manager,Option.bind_some]
  simp [disciplined,different]

private theorem disciplined_own (state : Thread) (rest : List (Operation Thread)) :
    disciplined state true (.lock state :: rest) = none := by
  simp [disciplined]

/-- The loop of the interrupts locks the thread's key twice where it comes to the thread itself. -/
private theorem interrupts_slip (state : Thread) (waiting : List (List Loose × Option Thread)) (rest : List (Operation Thread))
    (self : state ∈ waiting.filterMap Prod.snd) :
    disciplined state true ((waiting.flatMap fun next => getCurrentlyControllingManagerOf state next.1 ++
      match next.2 with
      | none => []
      | some threadToInterrupt => [.lock threadToInterrupt,.unlock threadToInterrupt]) ++ rest) = none := by
  induction waiting with
  | nil => cases self
  | cons next others ih =>
    obtain ⟨loose,found⟩ := next
    have manager : disciplined state true (getCurrentlyControllingManagerOf state loose) = some true :=
      (ownKey state).manager loose
    rw [List.flatMap_cons,List.append_assoc,disciplined_append,disciplined_append,manager,Option.bind_some]
    cases found with
    | none => exact ih (by simpa using self)
    | some other =>
      by_cases same : other = state
      · subst same
        rw [disciplined_own]
        rfl
      · have passed : disciplined state true [.lock other,.unlock other] = some true := disciplined_second same []
        rw [passed,Option.bind_some]
        exact ih (by simpa [Ne.symm same] using self)

/-- The poll of a native waiting thread frees a key it did not take, however often it blocks. -/
private theorem poll_slips (state : Thread) (path : Loose) :
    disciplined state false (suspendLooseCurrentThread state path ++ [.unlock state]) = none := by
  have blocks : ∀ blocks, disciplined state false (suspendCurrentThread state blocks ++ [.unlock state]) = none := by
    intro blocks
    cases blocks with
    | zero => simp [suspendCurrentThread,disciplined]
    | succ blocks => simp [suspendCurrentThread,List.replicate_succ,onBlockedWaitingInVex,disciplined]
  unfold suspendLooseCurrentThread
  split
  · exact blocks path.blocks
  · exact blocks (path.blocks + 1)

private theorem untimed_slips (state : Thread) (entry again : Option Loose) :
    disciplined state false ((Handler.onPark entry (.untimed again)).operations state) = none := by
  have entered : ∀ entry, disciplined state false (onVexEntry state entry) = some true := (ownKey state).entered
  simp only [Handler.operations,VexThreadState.onWrappedWaitingStart,onVexExit,disciplined_append,entered,
    Option.bind_some]
  simp [disciplined,entered]

end Discipline

end Vexjine.AccessKeys
