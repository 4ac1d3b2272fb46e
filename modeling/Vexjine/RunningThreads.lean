import Vexjine.IntentionHandshake

/-!
# The running threads of the managers

Any number of threads and managers, each manager with its running thread. A
scheduler's suspend request goes from its signal over the thread's answer to the
processing of the answer; a thread works in VEX with its access key, blocks there
and is resumed; the signal handler interrupts it anywhere. What a handler does
between two steps on its key is one step here, what a scheduler does without the
key is split. The queue of runnable threads is left out: any suspended or waiting
thread may be continued. Simulated performance models are left out.
-/

namespace Vexjine.RunningThreads
open IntentionHandshake (Intention Holder Handler)
set_option linter.unusedSimpArgs false
set_option linter.unusedSectionVars false

/-! ## Threads -/

/-- Where a thread is: in its own or native code, in VEX before it locks its key because it has found
    itself not running, in VEX with its key, in `blockHereUntilSignaled`, or back from it. -/
inductive Place
  | outside
  | entering
  | inVex
  | blocked
  | resuming
  deriving DecidableEq

/-- The places of a thread that the signal handler has interrupted are kept, the last one first. No
    step reads `timedOut`, which counts the schedulers that have given up on its key and have still
    to declare it native waiting. -/
structure ThreadState where
  handshake : IntentionHandshake.State
  awaken : Bool
  place : Place
  interrupted : List Place
  timedOut : Nat
  deriving DecidableEq

namespace ThreadState
variable (thread : ThreadState)

def manager : Option Nat := thread.handshake.threadCurrentlyControllingManager

def handlers : List Handler := thread.handshake.handlers

def isRunning : Bool :=
  decide (thread.handshake.currentState = .running) || decide (thread.handshake.currentState = .inSystemCall)

def setNewState (newState : Code) : ThreadState :=
  { thread with handshake := { thread.handshake with currentState := newState } }

def setAwaken (awaken : Bool) : ThreadState := { thread with awaken }

def setSuspended : ThreadState := (thread.setNewState .suspended).setAwaken false

def setWaiting : ThreadState := thread.setNewState .waiting

def setTimedWaiting : ThreadState := (thread.setNewState .waiting).setAwaken false

def setRunning : ThreadState := thread.setNewState .running

def setNativeWaiting : ThreadState := { thread with handshake := thread.handshake.setNativeWaiting }

def unsetNativeWaiting : ThreadState :=
  { thread with handshake := { thread.handshake with queued := thread.handshake.queued - 1 } }

def setThreadCurrentlyControllingManager (manager : Nat) : ThreadState :=
  { thread with handshake := { thread.handshake with threadCurrentlyControllingManager := some manager } }

def setKey (holder : Option Holder) : ThreadState :=
  { thread with handshake := { thread.handshake with sharedAccessKey := holder } }

def setPlace (place : Place) : ThreadState := { thread with place }

/-- Up to the wait. -/
def onBlockedWaitingInVex : ThreadState := ((thread.setKey none).setAwaken false).setPlace .blocked

/-- The innermost handler returns to where it was started. -/
def returnFromHandler : ThreadState :=
  { thread with place := thread.interrupted.headD .outside,interrupted := thread.interrupted.tail }

end ThreadState

/-! ## The shared state -/

/-- What a scheduler does with the thread it has found running: it is about to lock its key, has
    given up on the key, waits for its intention, has read the intention, or still holds the key. -/
inductive Activity (Thread : Type)
  | idle
  | suspends (s : Thread)
  | timedOut (s : Thread)
  | awaits (s : Thread)
  | answered (s : Thread) (intention : Intention)
  | releases (s : Thread)
  deriving DecidableEq

structure State (Thread : Type) where
  threads : Thread → ThreadState
  runningThread : Nat → Option Thread
  schedulers : Nat → Activity Thread

/-- Before the first thread is spawned. -/
def initial (Thread : Type) : State Thread where
  threads := fun _ => ⟨IntentionHandshake.initial,false,.outside,[],0⟩
  runningThread := fun _ => none
  schedulers := fun _ => .idle

namespace State
variable {Thread : Type} [DecidableEq Thread] (state : State Thread) (manager : Nat) (s : Thread)

def onThread (change : ThreadState → ThreadState) : State Thread :=
  { state with threads := Function.update state.threads s (change (state.threads s)) }

def setRunning (running : Option Thread) : State Thread :=
  { state with runningThread := Function.update state.runningThread manager running }

def setActivity (activity : Activity Thread) : State Thread :=
  { state with schedulers := Function.update state.schedulers manager activity }

/-! ## Methods of a manager -/

def unsetCurrentThreadFromRunningThread : State Thread :=
  if state.runningThread manager = some s then state.setRunning manager none else state

def anotherThreadAlreadySetRunning : Bool :=
  (state.runningThread manager).any fun running => decide (running ≠ s)

/-- `none` where another thread is running. -/
def changeThreadStateToRunning : Option (State Thread) :=
  if state.anotherThreadAlreadySetRunning manager s then none
  else some ((state.onThread s fun thread =>
    thread.setRunning.setThreadCurrentlyControllingManager manager).setRunning manager (some s))

def setSuspendedAndPushToRunnables : State Thread :=
  (state.unsetCurrentThreadFromRunningThread manager s).onThread s ThreadState.setSuspended

/-- Up to the wait. -/
def blockCurrentThread : State Thread := state.onThread s ThreadState.onBlockedWaitingInVex

/-- A thread that finds another one running is suspended again. -/
def setRunningThread : State Thread :=
  let state := state.onThread s fun thread => thread.setAwaken false
  match state.changeThreadStateToRunning manager s with
  | some running => running
  | none => (state.setSuspendedAndPushToRunnables manager s).blockCurrentThread s

/-- Whether the thread suspends itself is a question of clocks and of the queue. -/
def suspendCurrentThread (suspends : Bool) : State Thread :=
  if suspends then (state.setSuspendedAndPushToRunnables manager s).blockCurrentThread s
  else if state.runningThread manager = some s then state
  else state.setRunningThread manager s

def suspendLooseCurrentThread (runnableThreadsEmpty : Bool) : State Thread :=
  let state := state.onThread s ThreadState.unsetNativeWaiting
  if runnableThreadsEmpty then state.setRunningThread manager s
  else (state.setSuspendedAndPushToRunnables manager s).blockCurrentThread s

/-! ## What a thread does in VEX -/

end State

/-- The parts of the event handlers, with what they set before they call the thread's manager. -/
inductive Call
  | suspendCurrentThread (suspends : Bool)
  | suspendLooseCurrentThread (runnableThreadsEmpty : Bool)
  | onReplacedWaiting
  | onLocklessRequestingLock
  | onReplacedTimedWaiting
  | onWrappedWaitingStart
  | onWrappedTimedWaitingStart
  | onWrappedTimedWaitingEnd
  | setIoThread (learning : Bool)
  | setSystemCallThread
  | onCachedIoEnd
  | onThreadEnd
  deriving DecidableEq

namespace State
variable {Thread : Type} [DecidableEq Thread] (state : State Thread)

/-- A thread without a manager, as I/O and native waits may leave it, has the given one suspend it: its
    previous one or the default. -/
def managerFor (s : Thread) (fallback : Nat) : Nat := ((state.threads s).manager).getD fallback

def call (manager : Nat) (s : Thread) : Call → State Thread
  | .suspendCurrentThread suspends => state.suspendCurrentThread manager s suspends
  | .suspendLooseCurrentThread runnableThreadsEmpty => state.suspendLooseCurrentThread manager s runnableThreadsEmpty
  | .onReplacedWaiting =>
    ((state.onThread s ThreadState.setWaiting).unsetCurrentThreadFromRunningThread manager s).blockCurrentThread s
  | .onLocklessRequestingLock => (state.unsetCurrentThreadFromRunningThread manager s).blockCurrentThread s
  | .onReplacedTimedWaiting =>
    ((state.onThread s ThreadState.setTimedWaiting).unsetCurrentThreadFromRunningThread manager s).blockCurrentThread s
  | .onWrappedWaitingStart =>
    (state.onThread s ThreadState.setWaiting).unsetCurrentThreadFromRunningThread manager s
  | .onWrappedTimedWaitingStart =>
    (state.onThread s ThreadState.setTimedWaiting).unsetCurrentThreadFromRunningThread manager s
  -- unlike the other waits, not taken from the manager
  | .onWrappedTimedWaitingEnd => (state.onThread s ThreadState.setSuspended).blockCurrentThread s
  | .setIoThread learning => (state.unsetCurrentThreadFromRunningThread manager s).onThread s
      fun thread => thread.setNewState (if learning then .learningIo else .inIo)
  | .setSystemCallThread => state.onThread s fun thread => thread.setNewState .inSystemCall
  | .onCachedIoEnd => state.onThread s ThreadState.setRunning
  | .onThreadEnd =>
    (state.onThread s fun thread => thread.setNewState .vexZombie).unsetCurrentThreadFromRunningThread manager s

end State

/-- A call that needs no manager, one inside a system call, or one that the thread's manager serves. -/
def Call.allowed (thread : ThreadState) : Call → Bool
  | .suspendCurrentThread _ => true
  | .suspendLooseCurrentThread _ => thread.manager.isNone
  | .setSystemCallThread | .onCachedIoEnd => thread.manager.isSome && thread.isRunning
  | _ => thread.manager.isSome

/-! ## Steps -/

/-- Of schedulers, of the signal handler, of the thread's own handlers, and of those of other threads
    that interrupt it. -/
inductive Event (Thread : Type)
  | suspendRunningResumeNext (manager : Nat) (s : Thread)
  | suspendThread (manager : Nat) (s : Thread)
  | suspendThreadTimesOut (manager : Nat) (s : Thread)
  | setNativeWaiting (manager : Nat) (s : Thread)
  | getSuspendingThreadIntention (manager : Nat) (s : Thread)
  | isSignalledThreadGoingToSuspend (manager : Nat) (s : Thread)
  | unlockShareResourceAccessKey (manager : Nat) (s : Thread)
  | continueThread (manager : Nat) (s : Thread)
  | pollNativeWaitingThreads (s : Thread)
  | deliver (s : Thread)
  | proceed (s : Thread) (isThreadStillBlockedInNativeWait : Bool)
  | notifySchedulerForIntention (s : Thread) (intention : Intention)
  | leaveNativeWaiting (s : Thread) (fallback : Nat) (runnableThreadsEmpty : Bool)
  | setInSystemCall (s : Thread)
  | onThreadSpawn (manager : Nat) (s : Thread)
  | onVexEntry (s : Thread)
  | ensureThreadIsNotInNativeWaitingStateWhenEnteringVex (s : Thread)
  | suspendLooseCurrentThread (s : Thread) (fallback : Nat) (runnableThreadsEmpty : Bool)
  | call (s : Thread) (fallback : Nat) (call : Call)
  | onVexExit (s : Thread)
  | returnFromBlock (s : Thread)
  | setRunningThread (s : Thread)
  | interruptThread (s : Thread)
  | onLocklessReleasingLock (s : Thread)
  | onWrappedWaitingInterrupt (s : Thread)
  deriving DecidableEq

/-- The thread that a step is about. -/
def Event.thread {Thread : Type} : Event Thread → Thread
  | .suspendRunningResumeNext _ s | .suspendThread _ s | .suspendThreadTimesOut _ s | .setNativeWaiting _ s
  | .getSuspendingThreadIntention _ s | .isSignalledThreadGoingToSuspend _ s | .unlockShareResourceAccessKey _ s
  | .continueThread _ s | .pollNativeWaitingThreads s | .deliver s | .proceed s _ | .notifySchedulerForIntention s _
  | .leaveNativeWaiting s _ _ | .setInSystemCall s | .onThreadSpawn _ s | .onVexEntry s
  | .ensureThreadIsNotInNativeWaitingStateWhenEnteringVex s | .suspendLooseCurrentThread s _ _ | .call s _ _
  | .onVexExit s | .returnFromBlock s | .setRunningThread s | .interruptThread s | .onLocklessReleasingLock s
  | .onWrappedWaitingInterrupt s => s

/-- The innermost handler's position. -/
def ThreadState.handlerAt (thread : ThreadState) (position : IntentionHandshake.Position) : Bool :=
  thread.handlers.head?.any fun handler => decide (handler.position = position)

namespace State
variable {Thread : Type} [DecidableEq Thread] (state : State Thread)

/-- A step of the handshake of one thread. -/
def handshake (s : Thread) (event : IntentionHandshake.Event) (change : ThreadState → ThreadState) : Option (State Thread) :=
  (IntentionHandshake.step (state.threads s).handshake event).map fun handshake =>
    state.onThread s fun thread => change { thread with handshake }

/-- `isSignalledThreadGoingToSuspend` after the intention is read. -/
def process (manager : Nat) (s : Thread) : Intention → State Thread
  | .toBeSuspended => (state.unsetCurrentThreadFromRunningThread manager s).onThread s ThreadState.setSuspended
  | .toBeDisregarded => state.unsetCurrentThreadFromRunningThread manager s
  -- whatever the thread does by now
  | .toKeepOnRunning => (state.setRunning manager (some s)).onThread s
      fun thread => thread.setThreadCurrentlyControllingManager manager

/-- What the handler does with its thread after it has answered: it returns, blocks, or goes on. -/
def afterAnswer : Intention → ThreadState → ThreadState
  | .toBeSuspended, thread => (thread.setAwaken false).setPlace .blocked
  | .toKeepOnRunning, thread => thread.returnFromHandler
  | .toBeDisregarded, thread => thread

/-- A handler that has returned leaves its thread at the place where it was interrupted. -/
def afterProceed (handlers : Nat) (thread : ThreadState) : ThreadState :=
  if thread.handlers.length < handlers then thread.returnFromHandler else thread

/-- The answers that the handler may give: native waiting is not asked of system calls, and a thread
    beside which another one runs does not keep on running. -/
def mayAnswer (s : Thread) : Intention → Bool
  | .toBeSuspended => true
  | .toBeDisregarded => decide ((state.threads s).handshake.currentState ≠ .inSystemCall)
  | .toKeepOnRunning => (state.threads s).manager.all fun manager => !state.anotherThreadAlreadySetRunning manager s

def keyFree (s : Thread) : Bool := decide ((state.threads s).handshake.sharedAccessKey = none)

/-- The thread's own code or native code runs. -/
def runsCode (s : Thread) : Bool := decide ((state.threads s).place = .outside ∧ (state.threads s).handlers = [])

end State

variable {Thread : Type} [DecidableEq Thread]

def step (state : State Thread) : Event Thread → Option (State Thread)
  | .suspendRunningResumeNext manager s =>
    if state.schedulers manager = .idle ∧ state.runningThread manager = some s then
      some (state.setActivity manager (.suspends s))
    else none
  | .suspendThread manager s =>
    if state.schedulers manager = .suspends s ∧ state.keyFree s then
      if state.runningThread manager = some s then
        (state.handshake s (.suspendThread manager) id).map fun state => state.setActivity manager (.awaits s)
      else some (state.setActivity manager .idle)
    else none
  | .suspendThreadTimesOut manager s =>
    if state.schedulers manager = .suspends s ∧ !state.keyFree s then
      some (((state.unsetCurrentThreadFromRunningThread manager s).onThread s
        fun thread => { thread with timedOut := thread.timedOut + 1 }).setActivity manager (.timedOut s))
    else none
  | .setNativeWaiting manager s =>
    if state.schedulers manager = .timedOut s then
      some ((state.onThread s fun thread =>
        { thread.setNativeWaiting with timedOut := thread.timedOut - 1 }).setActivity manager .idle)
    else none
  | .getSuspendingThreadIntention manager s =>
    if state.schedulers manager = .awaits s then
      (state.threads s).handshake.suspendFlag.bind fun intention =>
        (state.handshake s (.getSuspendingThreadIntention manager) id).map fun state =>
          state.setActivity manager (.answered s intention)
    else none
  | .isSignalledThreadGoingToSuspend manager s =>
    match state.schedulers manager with
    | .answered signalled intention =>
      if signalled = s then some ((state.process manager s intention).setActivity manager (.releases s)) else none
    | _ => none
  | .unlockShareResourceAccessKey manager s =>
    if state.schedulers manager = .releases s then
      (state.handshake s (.unlockShareResourceAccessKey (.scheduler manager)) id).map fun state =>
        state.setActivity manager .idle
    else none
  -- a waiting thread is interrupted at its timeout; the scheduler waits until the thread is blocked
  | .continueThread manager s =>
    if state.schedulers manager = .idle ∧ state.keyFree s ∧
        ((state.threads s).handshake.currentState = .suspended ∨ (state.threads s).handshake.currentState = .waiting) ∧
        ((state.threads s).place = .blocked ∨ (state.threads s).awaken = true) then
      some (state.onThread s fun thread =>
        (thread.setSuspended.setAwaken true).setThreadCurrentlyControllingManager manager)
    else none
  | .pollNativeWaitingThreads s => state.handshake s .pollNativeWaitingThreads id
  | .deliver s => state.handshake s .deliver fun thread =>
      { thread with place := .outside,interrupted := thread.place :: thread.interrupted }
  | .proceed s blocked =>
    if (state.threads s).place = .outside ∨
        (state.threads s).place = .inVex ∧ (state.threads s).handlerAt .leavesNativeWaiting then
      state.handshake s (.proceed blocked) (State.afterProceed (state.threads s).handlers.length)
    else none
  | .notifySchedulerForIntention s intention =>
    if (state.threads s).place = .outside ∧ (state.threads s).handlerAt .answersRequest ∧ state.mayAnswer s intention then
      state.handshake s (.notifySchedulerForIntention intention) (State.afterAnswer intention)
    else none
  -- without the key
  | .leaveNativeWaiting s fallback runnableThreadsEmpty =>
    if (state.threads s).place = .outside ∧ (state.threads s).handlerAt .leavesNativeWaiting then
      some (state.suspendLooseCurrentThread (state.managerFor s fallback) s runnableThreadsEmpty)
    else none
  -- of a thread that was suspended in a system call, by the handler that has suspended it
  | .setInSystemCall s =>
    if (state.threads s).place = .inVex ∧ (state.threads s).handlerAt .suspended ∧ (state.threads s).isRunning then
      some (state.onThread s fun thread => thread.setNewState .inSystemCall)
    else none
  | .onThreadSpawn manager s =>
    if state.runsCode s ∧ state.keyFree s ∧ (state.threads s).handshake.currentState = .registering then
      some (state.onThread s fun thread =>
        ((thread.setThreadCurrentlyControllingManager manager).setKey (some .thread)).setPlace .inVex)
    else none
  | .onVexEntry s =>
    if state.runsCode s ∧ state.keyFree s ∧ (state.threads s).handshake.currentState ≠ .vexZombie then
      some (state.onThread s fun thread => (thread.setKey (some .thread)).setPlace .inVex)
    else none
  | .ensureThreadIsNotInNativeWaitingStateWhenEnteringVex s =>
    if state.runsCode s ∧ (state.threads s).handshake.currentState ≠ .vexZombie ∧
        ((state.threads s).isRunning = false ∨ (state.threads s).manager = none) then
      some (state.onThread s fun thread => thread.setPlace .entering)
    else none
  | .suspendLooseCurrentThread s fallback runnableThreadsEmpty =>
    if (state.threads s).place = .entering ∧ (state.threads s).handlers = [] ∧ state.keyFree s then
      some ((state.onThread s fun thread =>
        (thread.setKey (some .thread)).setPlace .inVex).suspendLooseCurrentThread fallback s runnableThreadsEmpty)
    else none
  | .call s fallback call =>
    if (state.threads s).place = .inVex ∧ (state.threads s).handlers = [] ∧ call.allowed (state.threads s) then
      some (state.call (state.managerFor s fallback) s call)
    else none
  -- also outside, where an untimed park leaves VEX once more
  | .onVexExit s =>
    if (state.threads s).place = .inVex ∧ !(state.threads s).handlerAt .leavesNativeWaiting ∨ state.runsCode s then
      some (state.onThread s fun thread => (thread.setKey none).setPlace .outside)
    else none
  | .returnFromBlock s =>
    if (state.threads s).place = .blocked ∧ (state.threads s).awaken = true ∧ state.keyFree s then
      some (state.onThread s fun thread => (thread.setKey (some .thread)).setPlace .resuming)
    else none
  | .setRunningThread s =>
    if (state.threads s).place = .resuming then
      (state.threads s).manager.map fun manager =>
        (state.onThread s fun thread => thread.setPlace .inVex).setRunningThread manager s
    else none
  | .interruptThread s =>
    if (state.threads s).handshake.currentState = .waiting then some (state.onThread s ThreadState.setSuspended) else none
  -- the thread that the lock is handed to
  | .onLocklessReleasingLock s => if state.keyFree s then some (state.onThread s ThreadState.setSuspended) else none
  -- a thread whose untimed park an unpark ends
  | .onWrappedWaitingInterrupt s =>
    if state.keyFree s then some (state.onThread s fun thread => thread.setSuspended.setWaiting) else none

/-! ## What must hold -/

/-- A suspend request to the thread is between its signal and the processing of its answer. -/
def Requested (state : State Thread) (s : Thread) : Prop :=
  ∃ manager, state.schedulers manager = .awaits s ∨ ∃ intention, state.schedulers manager = .answered s intention

/-- The thread executes its own code under the manager: neither a call of VEX or of the signal handler,
    nor I/O, a native wait or another wait. -/
def Executes (state : State Thread) (manager : Nat) (s : Thread) : Prop :=
  state.runsCode s = true ∧ (state.threads s).isRunning = true ∧ (state.threads s).manager = some manager

structure OneRunning (state : State Thread) : Prop where
  once : ∀ s first second, state.runningThread first = some s → state.runningThread second = some s → first = second
  home : ∀ manager s, ¬ Requested state s → state.runningThread manager = some s →
    (state.threads s).isRunning = true ∧ (state.threads s).manager = some manager
  alone : ∀ manager first second, Executes state manager first → Executes state manager second → first = second

/-! ## When it holds -/

/-- The thread is not the running one of its manager. -/
def Idle (state : State Thread) (s : Thread) : Prop :=
  (state.threads s).manager.all (fun manager => decide (state.runningThread manager ≠ some s)) = true

/-- Signals find the thread outside VEX, not on its way into native waiting, and in the state they are
    meant for; nobody frees the key of somebody else; a running thread does not end a timed wait and is
    not interrupted; and a thread on whose key a scheduler has given up stays in VEX, and off its core
    at the end, until it is declared native waiting. -/
def Fits (state : State Thread) : Event Thread → Prop
  | .suspendThreadTimesOut _ s => (state.threads s).place ≠ .outside
  | .setNativeWaiting _ s => Idle state s
  | .deliver s => (state.threads s).place = .outside ∧
      ∀ handler ∈ (state.threads s).handlers, handler.position ≠ .becomesNativeWaiting
  | .proceed s blocked => IntentionHandshake.Expected (state.threads s).handshake (.proceed blocked) ∧
      ((state.threads s).place = .inVex → (state.threads s).timedOut = 0)
  | .leaveNativeWaiting s _ _ =>
      IntentionHandshake.MayUnlock (state.threads s).handshake .thread ∧ (state.threads s).timedOut = 0
  | .call s _ .onWrappedTimedWaitingEnd => Idle state s
  | .onVexExit s => IntentionHandshake.MayUnlock (state.threads s).handshake .thread ∧
      ((state.threads s).place = .inVex → (state.threads s).timedOut = 0)
  | .onLocklessReleasingLock s | .onWrappedWaitingInterrupt s => Idle state s
  | _ => True

end Vexjine.RunningThreads
