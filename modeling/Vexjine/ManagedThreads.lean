import Vexjine.QueueMembership

/-!
# Threads under the three managers

The methods of the base, the strictly and the loosely synchronized `ThreadManager` that
change a thread's state, its entries in the queue of runnable threads or the thread that a
manager runs, for threads in waits, parks, I/O and models, with and without time scaling.
Clocks and the registries of objects and locks are left out: the answers that depend on
clocks are given, any entry of the queue may be at its top, and a signal, an interrupt and
a lock's hand-over name their thread.
-/

namespace Vexjine.ManagedThreads
open Vexjine.QueueMembership (IoProtocol)
set_option linter.unusedSimpArgs false

inductive ManagerKind
  | base
  | strict
  | loose
  deriving DecidableEq

/-- How far the schedulers have come with a thread's model. -/
inductive Progress
  | simulating
  | queueing
  | finished
  deriving DecidableEq

/-- The call that a thread is in; a parking thread found a permit or not. -/
inductive Call
  | outside
  | replacedWaiting (updateLockRegistry : Bool)
  | replacedTimedWaiting (updateLockRegistry : Bool)
  | sleeping
  | requestingLock
  | wrappedWaiting
  | wrappedTimedWaiting
  | parking (permitted : Bool)
  | io
  | systemCall
  | model (progress : Progress)
  | ended
  deriving DecidableEq

/-- A thread is blocked while it waits in `blockHereUntilSignaled`; its time is scaled where its
    factor is not one; `alarms` counts the signals that interrupted its I/O. -/
structure ManagedThread where
  state : VexThreadState
  timeScaled : Bool
  threadCurrentlyControllingManager : Nat
  blocked : Bool
  alarms : Nat
  call : Call
  deriving DecidableEq

structure System where
  threadRegistry : Int64 → Option ManagedThread
  runningThread : Nat → Option Int64
  runnableThreads : List Int64

end ManagedThreads

/-! ## States of models -/

namespace VexThreadState
variable (state : VexThreadState)

def inIo : Bool := decide (state.currentState = .inIo) || decide (state.currentState = .learningIo)

def isActiveInModel : Bool := decide (state.currentState = .inModel)

def isModelTimedWaiting : Bool := state.isActiveInModel && decide (0 < state.timeout)

def isSimulatingModel : Bool := state.isActiveInModel || decide (state.currentState = .inModelWaiting)

def isWaitingRealCodeToCompleteAfterModelSimulation : Bool :=
  decide (state.currentState = .afterModelSimWaitingForRealCode)

end VexThreadState

namespace ManagedThreads
open Vexjine.QueueMembership (IoProtocol)

namespace System

def start : System := ⟨fun _ => none,fun _ => none,[]⟩

variable (kind : ManagerKind) (t : Int64) (thread : ManagedThread) (system : System)

/-! ## Access to the parts -/

def onThread (f : ManagedThread → ManagedThread) : System :=
  { system with threadRegistry := Function.update system.threadRegistry t ((system.threadRegistry t).map f) }

def onState (f : VexThreadState → VexThreadState) : System :=
  system.onThread t fun thread => { thread with state := f thread.state }

def setCall (call : Call) : System := system.onThread t fun thread => { thread with call }

def add (thread : ManagedThread) : System :=
  { system with threadRegistry := Function.update system.threadRegistry t (some thread) }

def push : System := { system with runnableThreads := system.runnableThreads ++ [t] }

def erase : System := { system with runnableThreads := system.runnableThreads.erase t }

def setRunning (manager : Nat) (running : Option Int64) : System :=
  { system with runningThread := Function.update system.runningThread manager running }

def runs : Prop := system.runningThread thread.threadCurrentlyControllingManager = some t

instance : Decidable (system.runs t thread) :=
  inferInstanceAs (Decidable (system.runningThread thread.threadCurrentlyControllingManager = some t))

def anotherThreadAlreadySetRunning : Bool :=
  (system.runningThread thread.threadCurrentlyControllingManager).any fun running => decide (running ≠ t)

/-! ## Blocking and running -/

def unsetCurrentThreadFromRunningThread : System :=
  if system.runs t thread then system.setRunning thread.threadCurrentlyControllingManager none else system

def onBlockedWaitingInVex : System :=
  system.onThread t fun thread => { thread with state := thread.state.blockHereUntilSignaled,blocked := true }

/-- A loosely synchronized manager takes the barrier of a thread with scaled time to be queued,
    unless the thread's state tells that it is not. -/
def pushesSuspended : Bool :=
  match kind with
  | .base | .strict => true
  | .loose => !thread.timeScaled || thread.state.isNativeWaiting || thread.state.isSuspended || thread.state.isWaiting

def setSuspendedAndPushToRunnables : System :=
  let system := system.unsetCurrentThreadFromRunningThread t thread
  match kind with
  | .base | .strict =>
    (system.onState t fun state => (state.setSuspended.setTimedOut true).setTimeout (-1)).push t
  | .loose =>
    let system := system.onState t VexThreadState.setSuspended
    if pushesSuspended .loose thread then system.push t else system

/-- The suspension that `suspendCurrentThread` makes; `listed` is `SUSPEND_OPT_THREAD_ALREADY_IN_LIST`. -/
def suspendSelf (listed : Bool) : System :=
  let system := if listed then
      (system.unsetCurrentThreadFromRunningThread t thread).onState t VexThreadState.setSuspended
    else system.setSuspendedAndPushToRunnables kind t thread
  system.onBlockedWaitingInVex t

/-- A thread that finds another one running is suspended again. -/
def setRunningThread : System :=
  if system.anotherThreadAlreadySetRunning t thread then
    (system.onState t fun state => state.setAwaken false).suspendSelf kind t thread (decide (t ∈ system.runnableThreads))
  else
    let system := (system.onThread t fun thread =>
        { thread with state := (thread.state.setAwaken false).setRunning,blocked := false }).setRunning
      thread.threadCurrentlyControllingManager (some t)
    match kind with
    | .base | .strict => system
    | .loose => if thread.timeScaled ∧ t ∉ system.runnableThreads then system.push t else system

/-- Where no other thread runs, it is for the clocks to say whether the thread suspends. -/
def suspendCurrentThread (suspends listed : Bool) : System :=
  if suspends || system.anotherThreadAlreadySetRunning t thread then system.suspendSelf kind t thread listed
  else if system.runs t thread then system
  else (if listed then system.erase t else system).setRunningThread kind t thread

def suspendLooseCurrentThread : System :=
  if system.runnableThreads = [] then system.setRunningThread kind t thread
  else (system.setSuspendedAndPushToRunnables kind t thread).onBlockedWaitingInVex t

def setTimedWaitingThread : System :=
  let system := (system.unsetCurrentThreadFromRunningThread t thread).onState t VexThreadState.setWaiting
  match kind with
  | .base | .strict => system.push t
  | .loose => if (system.threadRegistry t).any fun thread => decide (0 < thread.state.timeout) then system.push t else system

/-- A thread that a signal asks to suspend; with scaled time its barrier stays in the queue. -/
def setSuspended (manager : Nat) : System :=
  let system := if system.runningThread manager = some t then system.setRunning manager none else system
  let system := system.onState t VexThreadState.setSuspended
  match kind with
  | .base | .strict => system.push t
  | .loose => if thread.timeScaled then system else system.push t

def onIntentionToBeDisregarded : System :=
  let system := system.unsetCurrentThreadFromRunningThread t thread
  match kind with
  | .base | .strict => system
  | .loose => if thread.timeScaled then system.erase t else system

def notifySchedulerForVirtualizedTime (timeScaled : Bool) : System :=
  let scaled := system.onThread t fun thread => { thread with timeScaled }
  match kind with
  | .base | .strict => scaled
  | .loose => if timeScaled then scaled.setRunningThread .loose t { thread with timeScaled } else scaled.erase t

/-! ## Waits, parks, I/O and models -/

def onReplacedWaiting : System := (system.unsetCurrentThreadFromRunningThread t thread).onBlockedWaitingInVex t

def onReplacedWaitingStart (objectId : Int64) (updateLockRegistry : Bool) : System :=
  let system := system.onState t fun state => ((state.setTimedOut true).setWaitingObjectId objectId).setWaiting
  let system := if updateLockRegistry then system.onState t fun state => state.setTimeout (-2) else system
  (system.onReplacedWaiting t thread).setCall t (.replacedWaiting updateLockRegistry)

/-- Also the start of `onSleep`, on object zero. -/
def onReplacedTimedWaitingStart (objectId timeout : Int64) (call : Call) : System :=
  let system := system.onState t fun state => (state.setWaitingObjectId objectId).setTimedWaiting timeout
  ((system.setTimedWaitingThread kind t thread).onBlockedWaitingInVex t).setCall t call

def onWrappedWaitingStart (call : Call) : System :=
  ((system.onState t fun state =>
    (((state.setTimedOut true).setTimeout (-1)).setAwakeningFromJoin false).setWaiting).unsetCurrentThreadFromRunningThread t
      thread).setCall t call

def onWrappedWaitingEnd (suspends : Bool) : System :=
  let state := ((thread.state.setTimeout (-1)).setAwakeningFromJoin false).setTimedOut true
  ((system.onState t fun _ => state).suspendCurrentThread kind t { thread with state } suspends false).setCall t .outside

def onWrappedTimedWaitingStart (objectId timeout : Int64) (call : Call) : System :=
  let system := system.onState t fun state =>
    { state.setWaitingObjectId objectId with waitingInRealTime := true }.setTimedWaiting timeout
  (system.setTimedWaitingThread kind t thread).setCall t call

/-- The thread is taken to be in the queue. -/
def onWrappedTimedWaitingEnd : System :=
  ((system.onState t fun state =>
    ({ state with waitingInRealTime := false }.setTimedOut true).setSuspended).onBlockedWaitingInVex t).setCall t .outside

def onPark (timeout : Int64) : System :=
  let (alreadyUnparked,state) := thread.state.getAndSetUnparkedState
  let system := system.onState t fun _ => state
  if alreadyUnparked then system.setCall t (.parking true)
  else if 0 < timeout then system.onWrappedTimedWaitingStart kind t thread 0 timeout (.parking false)
  else system.onWrappedWaitingStart t thread (.parking false)

def onParked (suspends : Bool) : System :=
  if 0 < thread.state.timeout then system.onWrappedTimedWaitingEnd t
  else system.onWrappedWaitingEnd kind t thread suspends

def setIoThread (learning : Bool) : System :=
  let system := ((system.unsetCurrentThreadFromRunningThread t thread).onState t fun state =>
    state.setIo learning).setCall t .io
  if learning ∧ thread.state.timeout = -1 then system else system.push t

/-- `onEnd` of the protocol. -/
def onIoEnd (protocol : IoProtocol) (suspends : Bool) : System :=
  let system := match protocol with
    | .lax => system.suspendCurrentThread kind t thread suspends false
    | .normal =>
      if thread.state.currentState = Code.learningIo then
        if thread.state.timeout ≠ -1 then
          (system.onState t fun state => state.setTimeout (-1)).suspendCurrentThread kind t thread suspends true
        else system.suspendCurrentThread kind t thread suspends false
      else if thread.state.currentState = Code.inIo then system.suspendCurrentThread kind t thread suspends true
      else system
  system.setCall t .outside

/-- What the simulation of a thread's model has come to when its timeslot is over. A model that goes on
    may have begun a wait. -/
inductive Simulation
  | finished
  | goesOn (timeout : Option Int64)
  | queues
  deriving DecidableEq

/-- `_simulateModel`; a thread that queues at a node is not pushed back. -/
def simulateModel : Simulation → System
  | .finished =>
    ((system.onState t fun state => state.setNewState .afterModelSimWaitingForRealCode).setCall t (.model .finished)).push t
  | .goesOn timeout =>
    let system := system.onState t fun state => timeout.elim state state.setTimeout
    if thread.state.isActiveInModel then system.push t else system
  | .queues => (system.onState t fun state => state.setNewState .inModelWaiting).setCall t (.model .queueing)

/-- `setInModelSimulation` of a thread that the schedulers simulate. -/
def setInModelSimulation (timesliceRemains : Bool) (simulation : Simulation) : System :=
  let state := thread.state.setNewState .inModel
  let system := ((system.onState t fun _ => state).setCall t (.model .simulating)).unsetCurrentThreadFromRunningThread t thread
  if timesliceRemains && decide (thread.state.timeout ≤ 0) then
    (system.onState t fun state => state.setAwaken false).simulateModel t { thread with state } simulation
  else system.push t

/-- `onSynchronizeOnModelExit` once the simulation has ended. -/
def suspendModelSimulationFinishingThread (suspends : Bool) : System :=
  (system.suspendCurrentThread kind t thread suspends
    thread.state.isWaitingRealCodeToCompleteAfterModelSimulation).setCall t .outside

/-! ## Signals -/

/-- The timeout is read before the interrupt. -/
def onAnyReplacedWaitingInterrupt : System :=
  let system := system.onState t VexThreadState.beforeThreadInterrupt
  if thread.state.timeout ≠ 0 ∧ thread.state.timeout ≠ -2 then system else system.push t

def interruptThread (isThreadInterruptCall : Bool) : System :=
  if thread.state.isWaiting then
    (system.onAnyReplacedWaitingInterrupt t thread).onState t fun state => state.setTimedOut !isThreadInterruptCall
  else system

def onUnpark : System :=
  let (parked,state) := thread.state.getAndSetParkedState
  let system := system.onState t fun _ => state
  if parked then
    if 0 < thread.state.timeout then system.onState t fun state => state.setTimedOut false
    else system.onState t fun state => (state.beforeThreadInterrupt.setWaiting).setTimedOut false
  else system

/-- `resume` of the thread's customer. -/
def resumeCustomer : System :=
  ((system.onState t fun state => state.setNewState .inModel).setCall t (.model .simulating)).push t

/-! ## The scheduler -/

/-- What clocks, the registry and the timeline answer to a scheduler that continues a thread. -/
structure Answers where
  leapIsValid : Bool
  isTooFarAhead : Bool
  isEveryoneDisabled : Bool
  isAlive : Bool
  simulation : Simulation
  deriving DecidableEq

variable (manager : Nat) (answers : Answers)

/-- Threads that wait in real time are refused. -/
def isValidToLeap : Bool := answers.leapIsValid && !thread.state.waitingInRealTime

/-- The manager waits until the thread is blocked before it resumes it; a strict one puts a thread that is
    too far ahead back. -/
def resumeThread : Option System :=
  if kind = .strict ∧ answers.isTooFarAhead ∧ ¬ isValidToLeap thread answers ∧ ¬ answers.isEveryoneDisabled then
    some (system.push t)
  else if thread.blocked then
    some (system.onThread t fun thread =>
      { thread with state := thread.state.onThreadResumeByManager,threadCurrentlyControllingManager := manager })
  else none

def interruptTimedWaitingThread : Option System :=
  if isValidToLeap thread answers then
    ((system.onAnyReplacedWaitingInterrupt t thread).onState t fun state => state.setTimedOut true).resumeThread kind t
      { thread with state := thread.state.beforeThreadInterrupt.setTimedOut true } manager answers
  else some (system.push t)

def interruptTimedOutIoThread : System :=
  if isValidToLeap thread answers then
    system.onThread t fun thread => { thread with state := thread.state.setTimedOut true,alarms := thread.alarms + 1 }
  else system.push t

/-- A predicted thread has not been popped; an unscaled learning one without a timeout fails an assertion. -/
def handleIOPerformingThread : Option System :=
  if thread.state.currentState = Code.inIo then some system
  else if thread.timeScaled then some system
  else if thread.state.timeout = -1 then none
  else some (system.interruptTimedOutIoThread t thread answers)

def resumeModelSimulation : System :=
  let controlled (thread : ManagedThread) : ManagedThread :=
    { thread with state := thread.state.setAwaken false,threadCurrentlyControllingManager := manager }
  if thread.state.isModelTimedWaiting then
    if isValidToLeap thread answers then
      ((system.onState t fun state => state.setTimeout (-1)).onThread t controlled).simulateModel t thread answers.simulation
    else system.push t
  else (system.onThread t controlled).simulateModel t thread answers.simulation

/-- A thread that has gone is erased; others stay, perhaps at another place. -/
def pollThreadToCheckIfActuallyRunning : System := if answers.isAlive then system else system.erase t

/-- What `getNextIfEqualsElseReturnTop` does with the thread it was called for, once it is at the top. -/
inductive Next
  | nothing
  | listed
  | popped
  deriving DecidableEq

def getNextIfEqualsElseReturnTop : Next :=
  if thread.state.isRunning then .nothing
  else if thread.state.currentState = Code.inIo then .listed
  else if thread.state.isWaitingRealCodeToCompleteAfterModelSimulation then
    if thread.threadCurrentlyControllingManager ≠ manager then .nothing else .listed
  else .popped

def continuePoppedThread : Option System :=
  if thread.state.isSuspended then
    if thread.state.timedOut || (decide (thread.state.timeout ≠ 0) && thread.state.isNotAfterInterruptedTimedParking) then
      system.resumeThread kind t thread manager answers
    else some (system.push t)
  else if thread.state.inIo then system.handleIOPerformingThread t thread answers
  else if thread.state.isTimedWaiting then system.interruptTimedWaitingThread kind t thread manager answers
  else if thread.state.isSimulatingModel then some (system.resumeModelSimulation t thread manager answers)
  else if thread.state.isWaitingRealCodeToCompleteAfterModelSimulation then
    some (system.pollThreadToCheckIfActuallyRunning t answers)
  else if thread.state.isRunning then none
  else some system

/-- On the thread at the top of the queue. -/
def continueThread : Option System :=
  match getNextIfEqualsElseReturnTop thread manager with
  | .nothing => some system
  | .listed => system.continuePoppedThread kind t thread manager answers
  | .popped => (system.erase t).continuePoppedThread kind t thread manager answers

end System

/-! ## Steps -/

inductive Move
  | spawn (manager : Nat) (timedWaitingObjectId : Int64) (suspends : Bool)
  | ended
  | interactionPoint (suspends : Bool)
  | notifyScaling (timeScaled : Bool)
  | wait (objectId : Int64) (updateLockRegistry : Bool)
  | timedWait (objectId timeout : Int64) (updateLockRegistry : Bool)
  | sleep (timeout : Int64)
  | requestLock
  | releaseLock
  | wrappedWaitingStart
  | wrappedWaitingEnd (suspends : Bool)
  | wrappedTimedWaitingStart (objectId timeout : Int64)
  | wrappedTimedWaitingEnd
  | park (timeout : Int64)
  | parked (suspends : Bool)
  | systemCallStart
  | systemCallEnd
  | ioStart (predicted : Bool)
  | ioEnd (suspends : Bool)
  | simulate (timesliceRemains : Bool) (simulation : System.Simulation)
  | modelExit (suspends : Bool)
  | enter
  | returnFromBlock (acquires : Bool)
  | interrupt (isThreadInterruptCall : Bool)
  | interruptWrapped
  | handOver
  | unpark
  | resumeCustomer
  | suspend (manager : Nat)
  | disregard (manager : Nat)
  | continueThread (manager : Nat) (answers : System.Answers)
  deriving DecidableEq

structure Step where
  thread : Int64
  move : Move
  deriving DecidableEq

namespace ManagedThread
variable (thread : ManagedThread)

/-- The thread executes its own code. -/
def isFree : Bool := !thread.blocked && thread.state.isRunning

def isIn (call : Call) : Bool := !thread.blocked && decide (thread.call = call)

def isOutside : Bool := thread.isFree && decide (thread.call = .outside)

end ManagedThread

namespace System
variable (kind : ManagerKind) (protocol : IoProtocol) (t : Int64) (system : System)

/-- The return from a block, and the rest of the call that the thread was blocked in. A wait for which VEX
    keeps the lock takes the lock again, and is blocked again where it is held. -/
def returnFromBlock (thread : ManagedThread) (acquires : Bool) : System :=
  let system := system.setRunningThread kind t thread
  match system.threadRegistry t with
  | none => system
  | some running =>
    if running.blocked then system
    else
      let requests (system : System) : System := if acquires then system.setCall t .outside
        else (system.onReplacedWaiting t running).setCall t .requestingLock
      match running.call with
      | .replacedWaiting true => requests (system.onState t fun state => state.setTimeout (-1))
      | .replacedTimedWaiting true => requests system
      | .replacedWaiting false | .replacedTimedWaiting false | .sleeping | .requestingLock => system.setCall t .outside
      | .systemCall => system.onState t fun state => state.setNewState .inSystemCall
      | .outside | .wrappedWaiting | .wrappedTimedWaiting | .parking _ | .io | .model _ | .ended => system

/-- The move of a thread that is registered; refused where its call does not allow it. -/
def move (thread : ManagedThread) : Move → Option System
  | .spawn _ _ _ => none
  | .ended => if thread.isFree then
      some (((system.unsetCurrentThreadFromRunningThread t thread).onState t fun state =>
        state.setNewState .vexZombie).setCall t .ended)
    else none
  | .interactionPoint suspends =>
    if thread.isOutside then some (system.suspendCurrentThread kind t thread suspends false) else none
  | .notifyScaling timeScaled =>
    if thread.isOutside then some (system.notifySchedulerForVirtualizedTime kind t thread timeScaled) else none
  | .wait objectId updateLockRegistry =>
    if thread.isOutside then some (system.onReplacedWaitingStart t thread objectId updateLockRegistry) else none
  | .timedWait objectId timeout updateLockRegistry => if thread.isOutside then
      some (system.onReplacedTimedWaitingStart kind t thread objectId timeout (.replacedTimedWaiting updateLockRegistry))
    else none
  | .sleep timeout =>
    if thread.isOutside then some (system.onReplacedTimedWaitingStart kind t thread 0 timeout .sleeping) else none
  | .requestLock =>
    if thread.isOutside then some ((system.onReplacedWaiting t thread).setCall t .requestingLock) else none
  -- a release that hands the lock over
  | .releaseLock => if thread.isOutside then some (system.onState t fun state => state.setTimeout 0) else none
  | .wrappedWaitingStart =>
    if thread.isOutside then some (system.onWrappedWaitingStart t thread .wrappedWaiting) else none
  | .wrappedWaitingEnd suspends =>
    if thread.isIn .wrappedWaiting then some (system.onWrappedWaitingEnd kind t thread suspends) else none
  | .wrappedTimedWaitingStart objectId timeout => if thread.isOutside then
      some (system.onWrappedTimedWaitingStart kind t thread objectId timeout .wrappedTimedWaiting)
    else none
  | .wrappedTimedWaitingEnd =>
    if thread.isIn .wrappedTimedWaiting then some (system.onWrappedTimedWaitingEnd t) else none
  | .park timeout => if thread.isOutside then some (system.onPark kind t thread timeout) else none
  | .parked suspends =>
    if thread.isIn (.parking false) ∨ thread.isIn (.parking true) then some (system.onParked kind t thread suspends) else none
  | .systemCallStart => if thread.isOutside then
      some ((system.onState t fun state => state.setNewState .inSystemCall).setCall t .systemCall)
    else none
  | .systemCallEnd =>
    if thread.isIn .systemCall then some ((system.onState t VexThreadState.setRunning).setCall t .outside) else none
  -- the lax protocol predicts nothing; the suspension before it is an interaction point
  | .ioStart predicted => if thread.isOutside then
      some (system.setIoThread t thread !(predicted && decide (protocol = .normal)))
    else none
  | .ioEnd suspends => if thread.isIn .io then some (system.onIoEnd kind t thread protocol suspends) else none
  | .simulate timesliceRemains simulation =>
    if thread.isOutside then some (system.setInModelSimulation t thread timesliceRemains simulation) else none
  -- the thread waits here until the simulation has finished
  | .modelExit suspends =>
    if thread.isIn (.model .finished) then
      some (system.suspendModelSimulationFinishingThread kind t thread suspends)
    else none
  | .enter => if thread.isIn .outside ∧ ¬ thread.state.isRunning then
      some (system.suspendLooseCurrentThread kind t thread)
    else none
  | .returnFromBlock acquires =>
    if thread.blocked && thread.state.awaken then some (system.returnFromBlock kind t thread acquires) else none
  | .interrupt isThreadInterruptCall => some (system.interruptThread t thread isThreadInterruptCall)
  | .interruptWrapped =>
    if thread.state.isWaiting then some (system.onState t fun state => state.setTimedOut false) else none
  | .handOver => if thread.call = .requestingLock then some (system.onAnyReplacedWaitingInterrupt t thread) else none
  | .unpark => if thread.call = .ended then none else some (system.onUnpark t thread)
  | .resumeCustomer => if thread.call = .model .queueing then some (system.resumeCustomer t) else none
  | .suspend manager => if thread.isFree ∧ system.runningThread manager = some t then
      some ((system.setSuspended kind t thread manager).onBlockedWaitingInVex t)
    else none
  | .disregard manager =>
    if thread.isFree ∧ thread.state.currentState ≠ .inSystemCall ∧ system.runningThread manager = some t then
      some ((system.onIntentionToBeDisregarded kind t thread).onState t fun state => state.setNewState .nativeWaiting)
    else none
  | .continueThread manager answers =>
    if t ∈ system.runnableThreads then system.continueThread kind t thread manager answers else none

/-- A thread that has just been registered. -/
def spawned (manager : Nat) (timedWaitingObjectId : Int64) : ManagedThread where
  state := .init timedWaitingObjectId
  timeScaled := false
  threadCurrentlyControllingManager := manager
  blocked := false
  alarms := 0
  call := .outside

def onThreadStart (manager : Nat) (timedWaitingObjectId : Int64) (suspends : Bool) : System :=
  let thread := spawned manager timedWaitingObjectId
  (system.add t thread).suspendCurrentThread kind t thread suspends false

def step (event : Step) : Option System :=
  match system.threadRegistry event.thread with
  | some thread => system.move kind protocol event.thread thread event.move
  | none => match event.move with
    | .spawn manager timedWaitingObjectId suspends =>
      some (system.onThreadStart kind event.thread manager timedWaitingObjectId suspends)
    | _ => none

theorem step_cases {kind : ManagerKind} {protocol : IoProtocol} {system next : System} {event : Step}
    (stepped : system.step kind protocol event = some next) :
    (∃ thread, system.threadRegistry event.thread = some thread ∧
      system.move kind protocol event.thread thread event.move = some next) ∨
    (system.threadRegistry event.thread = none ∧ ∃ manager timedWaitingObjectId suspends,
      next = system.onThreadStart kind event.thread manager timedWaitingObjectId suspends) := by
  unfold step at stepped
  cases found : system.threadRegistry event.thread with
  | some thread =>
    simp only [found] at stepped
    exact Or.inl ⟨thread,rfl,stepped⟩
  | none =>
    simp only [found] at stepped
    split at stepped
    · cases stepped
      exact Or.inr ⟨rfl,_,_,_,rfl⟩
    · cases stepped

end System

/-! ## Other threads

A move changes its own thread, that thread's entries in the queue and who runs it, and leaves the others. -/

structure Frame (t : Int64) (system next : System) : Prop where
  thread : ∀ b, b ≠ t → next.threadRegistry b = system.threadRegistry b
  queue : ∀ b, b ≠ t → (b ∈ next.runnableThreads ↔ b ∈ system.runnableThreads)
  running : ∀ b manager, b ≠ t → next.runningThread manager = some b → system.runningThread manager = some b

namespace Frame
variable {kind : ManagerKind} {t : Int64} {system next : System}

theorem refl : Frame t system system := ⟨fun _ _ => rfl,fun _ _ => Iff.rfl,fun _ _ _ => id⟩

theorem onThread (frame : Frame t system next) (f : ManagedThread → ManagedThread) :
    Frame t system (next.onThread t f) where
  thread b other := by simp [System.onThread,Function.update_of_ne other,frame.thread b other]
  queue := frame.queue
  running := frame.running

theorem onState (frame : Frame t system next) (f : VexThreadState → VexThreadState) :
    Frame t system (next.onState t f) := frame.onThread _

theorem setCall (frame : Frame t system next) (call : Call) : Frame t system (next.setCall t call) := frame.onThread _

theorem add (frame : Frame t system next) (thread : ManagedThread) : Frame t system (next.add t thread) where
  thread b other := by simp [System.add,Function.update_of_ne other,frame.thread b other]
  queue := frame.queue
  running := frame.running

theorem push (frame : Frame t system next) : Frame t system (next.push t) where
  thread := frame.thread
  queue b other := by simp [System.push,other,frame.queue b other]
  running := frame.running

theorem erase (frame : Frame t system next) : Frame t system (next.erase t) where
  thread := frame.thread
  queue b other := by simp [System.erase,List.mem_erase_of_ne other,frame.queue b other]
  running := frame.running

theorem setRunning (frame : Frame t system next) (manager : Nat) {running : Option Int64}
    (own : ∀ b, running = some b → b = t) : Frame t system (next.setRunning manager running) where
  thread := frame.thread
  queue := frame.queue
  running b other different := by
    simp only [System.setRunning,Function.update_apply]
    split_ifs
    · intro found
      exact absurd (own b found) different
    · exact frame.running b other different

theorem clearRunning (frame : Frame t system next) (manager : Nat) : Frame t system (next.setRunning manager none) :=
  frame.setRunning manager fun _ found => nomatch found

theorem takeRunning (frame : Frame t system next) (manager : Nat) : Frame t system (next.setRunning manager (some t)) :=
  frame.setRunning manager fun _ found => (Option.some.inj found).symm

theorem unset (frame : Frame t system next) (thread : ManagedThread) :
    Frame t system (next.unsetCurrentThreadFromRunningThread t thread) := by
  unfold System.unsetCurrentThreadFromRunningThread
  split_ifs
  · exact frame.clearRunning _
  · exact frame

theorem block (frame : Frame t system next) : Frame t system (next.onBlockedWaitingInVex t) := frame.onThread _

theorem setSuspendedAndPush (frame : Frame t system next) (thread : ManagedThread) :
    Frame t system (next.setSuspendedAndPushToRunnables kind t thread) := by
  cases kind with
  | base | strict => exact ((frame.unset thread).onState _).push
  | loose =>
    simp only [System.setSuspendedAndPushToRunnables]
    split_ifs
    · exact ((frame.unset thread).onState _).push
    · exact (frame.unset thread).onState _

theorem suspendSelf (frame : Frame t system next) (thread : ManagedThread) (listed : Bool) :
    Frame t system (next.suspendSelf kind t thread listed) := by
  cases listed with
  | false => exact (frame.setSuspendedAndPush thread).block
  | true => exact ((frame.unset thread).onState _).block

theorem setRunningThread (frame : Frame t system next) (thread : ManagedThread) :
    Frame t system (next.setRunningThread kind t thread) := by
  unfold System.setRunningThread
  split_ifs
  · exact (frame.onState _).suspendSelf thread _
  · cases kind with
    | base | strict => exact (frame.onThread _).takeRunning _
    | loose =>
      dsimp only
      split_ifs
      · exact ((frame.onThread _).takeRunning _).push
      · exact (frame.onThread _).takeRunning _

theorem suspendCurrentThread (frame : Frame t system next) (thread : ManagedThread) (suspends listed : Bool) :
    Frame t system (next.suspendCurrentThread kind t thread suspends listed) := by
  unfold System.suspendCurrentThread
  split_ifs
  · exact frame.suspendSelf thread listed
  · exact frame
  · exact frame.erase.setRunningThread thread
  · exact frame.setRunningThread thread

theorem setTimedWaitingThread (frame : Frame t system next) (thread : ManagedThread) :
    Frame t system (next.setTimedWaitingThread kind t thread) := by
  cases kind with
  | base | strict => exact ((frame.unset thread).onState _).push
  | loose =>
    simp only [System.setTimedWaitingThread]
    split_ifs
    · exact ((frame.unset thread).onState _).push
    · exact (frame.unset thread).onState _

theorem onReplacedWaiting (frame : Frame t system next) (thread : ManagedThread) :
    Frame t system (next.onReplacedWaiting t thread) := (frame.unset thread).block

theorem onWrappedWaitingStart (frame : Frame t system next) (thread : ManagedThread) (call : Call) :
    Frame t system (next.onWrappedWaitingStart t thread call) := ((frame.onState _).unset thread).setCall call

theorem onWrappedWaitingEnd (frame : Frame t system next) (thread : ManagedThread) (suspends : Bool) :
    Frame t system (next.onWrappedWaitingEnd kind t thread suspends) :=
  ((frame.onState _).suspendCurrentThread _ suspends false).setCall _

theorem onWrappedTimedWaitingStart (frame : Frame t system next) (thread : ManagedThread) (objectId timeout : Int64)
    (call : Call) : Frame t system (next.onWrappedTimedWaitingStart kind t thread objectId timeout call) :=
  ((frame.onState _).setTimedWaitingThread thread).setCall call

theorem onWrappedTimedWaitingEnd (frame : Frame t system next) : Frame t system (next.onWrappedTimedWaitingEnd t) :=
  ((frame.onState _).block).setCall _

theorem onIoEnd (frame : Frame t system next) (thread : ManagedThread) (protocol : IoProtocol) (suspends : Bool) :
    Frame t system (next.onIoEnd kind t thread protocol suspends) := by
  unfold System.onIoEnd
  apply setCall
  cases protocol with
  | lax => exact frame.suspendCurrentThread thread suspends false
  | normal =>
    dsimp only
    split_ifs
    · exact (frame.onState _).suspendCurrentThread thread suspends true
    · exact frame.suspendCurrentThread thread suspends false
    · exact frame.suspendCurrentThread thread suspends true
    · exact frame

theorem simulateModel (frame : Frame t system next) (thread : ManagedThread) (simulation : System.Simulation) :
    Frame t system (next.simulateModel t thread simulation) := by
  cases simulation with
  | finished => exact ((frame.onState _).setCall _).push
  | goesOn timeout =>
    simp only [System.simulateModel]
    split_ifs
    · exact (frame.onState _).push
    · exact frame.onState _
  | queues => exact (frame.onState _).setCall _

theorem onAnyReplacedWaitingInterrupt (frame : Frame t system next) (thread : ManagedThread) :
    Frame t system (next.onAnyReplacedWaitingInterrupt t thread) := by
  unfold System.onAnyReplacedWaitingInterrupt
  dsimp only
  split_ifs
  · exact frame.onState _
  · exact (frame.onState _).push

theorem onUnpark (frame : Frame t system next) (thread : ManagedThread) : Frame t system (next.onUnpark t thread) := by
  unfold System.onUnpark
  dsimp only
  split_ifs
  · exact (frame.onState _).onState _
  · exact (frame.onState _).onState _
  · exact frame.onState _

theorem returnFromBlock (frame : Frame t system next) (thread : ManagedThread) (acquires : Bool) :
    Frame t system (next.returnFromBlock kind t thread acquires) := by
  have running : Frame t system (next.setRunningThread kind t thread) := frame.setRunningThread thread
  unfold System.returnFromBlock
  dsimp only
  split
  · exact running
  · split_ifs with blocked acquired
    · exact running
    · split
      · exact (running.onState _).setCall _
      · exact running.setCall _
      all_goals first | exact running.setCall _ | exact running.onState _ | exact running
    · split
      · exact ((running.onState _).onReplacedWaiting _).setCall _
      · exact (running.onReplacedWaiting _).setCall _
      all_goals first | exact running.setCall _ | exact running.onState _ | exact running

variable {manager : Nat} {answers : System.Answers} {last : System}

theorem resumeThread (frame : Frame t system next) {thread : ManagedThread}
    (resumed : next.resumeThread kind t thread manager answers = some last) : Frame t system last := by
  unfold System.resumeThread at resumed
  split_ifs at resumed
  · cases resumed
    exact frame.push
  · cases resumed
    exact frame.onThread _

theorem resumeModelSimulation (frame : Frame t system next) (thread : ManagedThread) :
    Frame t system (next.resumeModelSimulation t thread manager answers) := by
  unfold System.resumeModelSimulation
  dsimp only
  split_ifs
  · exact ((frame.onState _).onThread _).simulateModel thread _
  · exact frame.push
  · exact (frame.onThread _).simulateModel thread _

theorem continuePoppedThread (frame : Frame t system next) {thread : ManagedThread}
    (continued : next.continuePoppedThread kind t thread manager answers = some last) : Frame t system last := by
  unfold System.continuePoppedThread System.handleIOPerformingThread System.interruptTimedWaitingThread
    System.interruptTimedOutIoThread System.pollThreadToCheckIfActuallyRunning at continued
  split_ifs at continued
  case pos => exact frame.resumeThread continued
  all_goals first
    | (cases continued; first | exact frame | exact frame.push | exact frame.erase | exact frame.onThread _
                              | exact frame.resumeModelSimulation thread)
    | exact ((frame.onAnyReplacedWaitingInterrupt thread).onState _).resumeThread continued

theorem continueThread (frame : Frame t system next) {thread : ManagedThread}
    (continued : next.continueThread kind t thread manager answers = some last) : Frame t system last := by
  unfold System.continueThread at continued
  split at continued
  · cases continued
    exact frame
  · exact frame.continuePoppedThread continued
  · exact frame.erase.continuePoppedThread continued

theorem setSuspended (frame : Frame t system next) (thread : ManagedThread) (manager : Nat) :
    Frame t system (next.setSuspended kind t thread manager) := by
  have cleared : Frame t system
      (if next.runningThread manager = some t then next.setRunning manager none else next) := by
    split_ifs
    · exact frame.clearRunning manager
    · exact frame
  cases kind with
  | base | strict => exact (cleared.onState _).push
  | loose =>
    simp only [System.setSuspended]
    by_cases scaled : thread.timeScaled = true
    · rw [if_pos scaled]
      exact cleared.onState _
    · rw [if_neg scaled]
      exact (cleared.onState _).push

theorem onIntentionToBeDisregarded (frame : Frame t system next) (thread : ManagedThread) :
    Frame t system (next.onIntentionToBeDisregarded kind t thread) := by
  cases kind with
  | base | strict => exact frame.unset thread
  | loose =>
    simp only [System.onIntentionToBeDisregarded]
    split_ifs
    · exact (frame.unset thread).erase
    · exact frame.unset thread

theorem notifySchedulerForVirtualizedTime (frame : Frame t system next) (thread : ManagedThread) (timeScaled : Bool) :
    Frame t system (next.notifySchedulerForVirtualizedTime kind t thread timeScaled) := by
  cases kind with
  | base | strict => exact frame.onThread _
  | loose =>
    cases timeScaled with
    | true =>
      simp only [System.notifySchedulerForVirtualizedTime,if_true]
      exact (frame.onThread _).setRunningThread _
    | false =>
      simp only [System.notifySchedulerForVirtualizedTime,Bool.false_eq_true,if_false]
      exact (frame.onThread _).erase

theorem suspendLooseCurrentThread (frame : Frame t system next) (thread : ManagedThread) :
    Frame t system (next.suspendLooseCurrentThread kind t thread) := by
  unfold System.suspendLooseCurrentThread
  split_ifs
  · exact frame.setRunningThread thread
  · exact (frame.setSuspendedAndPush thread).block

theorem onReplacedWaitingStart (frame : Frame t system next) (thread : ManagedThread) (objectId : Int64)
    (updateLockRegistry : Bool) : Frame t system (next.onReplacedWaitingStart t thread objectId updateLockRegistry) := by
  unfold System.onReplacedWaitingStart
  dsimp only
  apply setCall
  apply onReplacedWaiting
  split_ifs
  · exact (frame.onState _).onState _
  · exact frame.onState _

theorem onReplacedTimedWaitingStart (frame : Frame t system next) (thread : ManagedThread) (objectId timeout : Int64)
    (call : Call) : Frame t system (next.onReplacedTimedWaitingStart kind t thread objectId timeout call) :=
  (((frame.onState _).setTimedWaitingThread thread).block).setCall call

theorem onPark (frame : Frame t system next) (thread : ManagedThread) (timeout : Int64) :
    Frame t system (next.onPark kind t thread timeout) := by
  unfold System.onPark
  dsimp only
  split_ifs
  · exact (frame.onState _).setCall _
  · exact (frame.onState _).onWrappedTimedWaitingStart thread 0 timeout _
  · exact (frame.onState _).onWrappedWaitingStart thread _

theorem onParked (frame : Frame t system next) (thread : ManagedThread) (suspends : Bool) :
    Frame t system (next.onParked kind t thread suspends) := by
  unfold System.onParked
  split_ifs
  · exact frame.onWrappedTimedWaitingEnd
  · exact frame.onWrappedWaitingEnd thread suspends

theorem setIoThread (frame : Frame t system next) (thread : ManagedThread) (learning : Bool) :
    Frame t system (next.setIoThread t thread learning) := by
  unfold System.setIoThread
  dsimp only
  split_ifs
  · exact ((frame.unset thread).onState _).setCall _
  · exact (((frame.unset thread).onState _).setCall _).push

theorem setInModelSimulation (frame : Frame t system next) (thread : ManagedThread) (timesliceRemains : Bool)
    (simulation : System.Simulation) :
    Frame t system (next.setInModelSimulation t thread timesliceRemains simulation) := by
  unfold System.setInModelSimulation
  dsimp only
  split_ifs
  · exact ((((frame.onState _).setCall _).unset thread).onState _).simulateModel _ simulation
  · exact (((frame.onState _).setCall _).unset thread).push

theorem interruptThread (frame : Frame t system next) (thread : ManagedThread) (isThreadInterruptCall : Bool) :
    Frame t system (next.interruptThread t thread isThreadInterruptCall) := by
  unfold System.interruptThread
  split_ifs
  · exact (frame.onAnyReplacedWaitingInterrupt thread).onState _
  · exact frame

theorem resumeCustomer (frame : Frame t system next) : Frame t system (next.resumeCustomer t) :=
  ((frame.onState _).setCall _).push

end Frame

/-! ## The moves -/

section Moves
variable {kind : ManagerKind} {protocol : IoProtocol} {t : Int64} {thread : ManagedThread} {system next : System}

theorem allowed {condition : Prop} [Decidable condition] {result : System}
    (moved : (if condition then some result else none) = some next) : condition ∧ result = next := by
  simpa only [Option.ite_none_right_eq_some,Option.some.injEq] using moved

theorem move_frame {move : Move} (moved : system.move kind protocol t thread move = some next) : Frame t system next := by
  have here : Frame t system system := .refl
  cases move with
  | spawn manager timedWaitingObjectId suspends => cases moved
  | continueThread manager answers =>
    simp only [System.move,Option.ite_none_right_eq_some] at moved
    exact here.continueThread moved.2
  | unpark =>
    simp only [System.move,Option.ite_none_left_eq_some,Option.some.injEq] at moved
    exact moved.2 ▸ here.onUnpark thread
  | interrupt isThreadInterruptCall =>
    cases moved
    exact here.interruptThread thread isThreadInterruptCall
  | ended => exact (allowed moved).2 ▸ ((here.unset thread).onState _).setCall _
  | interactionPoint suspends => exact (allowed moved).2 ▸ here.suspendCurrentThread thread suspends false
  | notifyScaling timeScaled => exact (allowed moved).2 ▸ here.notifySchedulerForVirtualizedTime thread timeScaled
  | wait objectId updateLockRegistry =>
    exact (allowed moved).2 ▸ here.onReplacedWaitingStart thread objectId updateLockRegistry
  | timedWait objectId timeout updateLockRegistry =>
    exact (allowed moved).2 ▸ here.onReplacedTimedWaitingStart thread objectId timeout _
  | sleep timeout => exact (allowed moved).2 ▸ here.onReplacedTimedWaitingStart thread 0 timeout _
  | requestLock => exact (allowed moved).2 ▸ (here.onReplacedWaiting thread).setCall _
  | releaseLock => exact (allowed moved).2 ▸ here.onState _
  | wrappedWaitingStart => exact (allowed moved).2 ▸ here.onWrappedWaitingStart thread _
  | wrappedWaitingEnd suspends => exact (allowed moved).2 ▸ here.onWrappedWaitingEnd thread suspends
  | wrappedTimedWaitingStart objectId timeout =>
    exact (allowed moved).2 ▸ here.onWrappedTimedWaitingStart thread objectId timeout _
  | wrappedTimedWaitingEnd => exact (allowed moved).2 ▸ here.onWrappedTimedWaitingEnd
  | park timeout => exact (allowed moved).2 ▸ here.onPark thread timeout
  | parked suspends => exact (allowed moved).2 ▸ here.onParked thread suspends
  | systemCallStart => exact (allowed moved).2 ▸ (here.onState _).setCall _
  | systemCallEnd => exact (allowed moved).2 ▸ (here.onState _).setCall _
  | ioStart predicted => exact (allowed moved).2 ▸ here.setIoThread thread _
  | ioEnd suspends => exact (allowed moved).2 ▸ here.onIoEnd thread protocol suspends
  | simulate timesliceRemains simulation =>
    exact (allowed moved).2 ▸ here.setInModelSimulation thread timesliceRemains simulation
  | modelExit suspends => exact (allowed moved).2 ▸ (here.suspendCurrentThread thread suspends _).setCall _
  | enter => exact (allowed moved).2 ▸ here.suspendLooseCurrentThread thread
  | returnFromBlock acquires => exact (allowed moved).2 ▸ here.returnFromBlock thread acquires
  | interruptWrapped => exact (allowed moved).2 ▸ here.onState _
  | handOver => exact (allowed moved).2 ▸ here.onAnyReplacedWaitingInterrupt thread
  | resumeCustomer => exact (allowed moved).2 ▸ here.resumeCustomer
  | suspend manager => exact (allowed moved).2 ▸ (here.setSuspended thread manager).block
  | disregard manager => exact (allowed moved).2 ▸ (here.onIntentionToBeDisregarded thread).onState _

theorem step_frame {event : Step} (stepped : system.step kind protocol event = some next) :
    Frame event.thread system next := by
  obtain ⟨thread,-,moved⟩ | ⟨-,manager,timedWaitingObjectId,suspends,rfl⟩ := System.step_cases stepped
  · exact move_frame moved
  · exact (Frame.refl.add _).suspendCurrentThread _ _ _

end Moves

/-! ## The thread of a move -/

namespace System
variable {kind : ManagerKind} {t : Int64} {thread current : ManagedThread} {system : System}

@[simp] theorem onThread_self (f : ManagedThread → ManagedThread) :
    (system.onThread t f).threadRegistry t = (system.threadRegistry t).map f := by simp [onThread]

@[simp] theorem onState_self (f : VexThreadState → VexThreadState) :
    (system.onState t f).threadRegistry t =
      (system.threadRegistry t).map fun thread => { thread with state := f thread.state } := onThread_self _

@[simp] theorem setCall_self (call : Call) :
    (system.setCall t call).threadRegistry t = (system.threadRegistry t).map fun thread => { thread with call } :=
  onThread_self _

@[simp] theorem block_self : (system.onBlockedWaitingInVex t).threadRegistry t =
    (system.threadRegistry t).map fun thread => { thread with state := thread.state.blockHereUntilSignaled,blocked := true } :=
  onThread_self _

@[simp] theorem push_threadRegistry : (system.push t).threadRegistry = system.threadRegistry := rfl

@[simp] theorem erase_threadRegistry : (system.erase t).threadRegistry = system.threadRegistry := rfl

@[simp] theorem setRunning_threadRegistry (manager : Nat) (running : Option Int64) :
    (system.setRunning manager running).threadRegistry = system.threadRegistry := rfl

@[simp] theorem unset_threadRegistry :
    (system.unsetCurrentThreadFromRunningThread t thread).threadRegistry = system.threadRegistry := by
  unfold unsetCurrentThreadFromRunningThread
  split_ifs <;> rfl

@[simp] theorem onThread_queue (f : ManagedThread → ManagedThread) :
    (system.onThread t f).runnableThreads = system.runnableThreads := rfl

@[simp] theorem onState_queue (f : VexThreadState → VexThreadState) :
    (system.onState t f).runnableThreads = system.runnableThreads := rfl

@[simp] theorem setCall_queue (call : Call) : (system.setCall t call).runnableThreads = system.runnableThreads := rfl

@[simp] theorem block_queue : (system.onBlockedWaitingInVex t).runnableThreads = system.runnableThreads := rfl

@[simp] theorem push_queue : (system.push t).runnableThreads = system.runnableThreads ++ [t] := rfl

@[simp] theorem setRunning_queue (manager : Nat) (running : Option Int64) :
    (system.setRunning manager running).runnableThreads = system.runnableThreads := rfl

@[simp] theorem unset_queue :
    (system.unsetCurrentThreadFromRunningThread t thread).runnableThreads = system.runnableThreads := by
  unfold unsetCurrentThreadFromRunningThread
  split_ifs <;> rfl

@[simp] theorem onThread_running (f : ManagedThread → ManagedThread) :
    (system.onThread t f).runningThread = system.runningThread := rfl

@[simp] theorem onState_running (f : VexThreadState → VexThreadState) :
    (system.onState t f).runningThread = system.runningThread := rfl

@[simp] theorem setCall_running (call : Call) : (system.setCall t call).runningThread = system.runningThread := rfl

@[simp] theorem block_running : (system.onBlockedWaitingInVex t).runningThread = system.runningThread := rfl

@[simp] theorem push_running : (system.push t).runningThread = system.runningThread := rfl

theorem unset_ends {manager : Nat} (same : thread.threadCurrentlyControllingManager = manager) :
    (system.unsetCurrentThreadFromRunningThread t thread).runningThread manager ≠ some t := by
  subst same
  by_cases running : system.runs t thread
  · rw [unsetCurrentThreadFromRunningThread,if_pos running]
    simp [setRunning]
  · rw [unsetCurrentThreadFromRunningThread,if_neg running]
    exact running

@[simp] theorem setTimedWaitingThread_self : (system.setTimedWaitingThread kind t thread).threadRegistry t =
    (system.threadRegistry t).map fun thread => { thread with state := thread.state.setWaiting } := by
  cases kind with
  | base | strict => simp [setTimedWaitingThread]
  | loose =>
    simp only [setTimedWaitingThread]
    split_ifs <;> simp

@[simp] theorem setTimedWaitingThread_running : (system.setTimedWaitingThread kind t thread).runningThread =
    (system.unsetCurrentThreadFromRunningThread t thread).runningThread := by
  cases kind with
  | base | strict => rfl
  | loose =>
    simp only [setTimedWaitingThread]
    split_ifs <;> rfl

theorem interrupt_self : (system.onAnyReplacedWaitingInterrupt t thread).threadRegistry t =
    (system.threadRegistry t).map fun thread => { thread with state := thread.state.beforeThreadInterrupt } := by
  unfold onAnyReplacedWaitingInterrupt
  dsimp only
  split_ifs <;> simp

@[simp] theorem interrupt_running :
    (system.onAnyReplacedWaitingInterrupt t thread).runningThread = system.runningThread := by
  unfold onAnyReplacedWaitingInterrupt
  dsimp only
  split_ifs <;> rfl

@[simp] theorem onUnpark_running : (system.onUnpark t thread).runningThread = system.runningThread := by
  unfold onUnpark
  dsimp only
  split_ifs <;> rfl

@[simp] theorem onUnpark_queue : (system.onUnpark t thread).runnableThreads = system.runnableThreads := by
  unfold onUnpark
  dsimp only
  split_ifs <;> rfl

/-- A thread with a timeout other than those of a wait without one keeps its entries. -/
theorem interrupt_queue (untimed : ¬ (thread.state.timeout = 0 ∨ thread.state.timeout = -2)) :
    (system.onAnyReplacedWaitingInterrupt t thread).runnableThreads = system.runnableThreads := by
  unfold onAnyReplacedWaitingInterrupt
  dsimp only
  rw [if_pos (not_or.mp untimed)]
  rfl

/-- The thread is blocked as a suspended one. -/
structure Suspends (current after : ManagedThread) : Prop where
  state : after.state.currentState = .suspended
  asleep : after.state.awaken = false
  blocked : after.blocked = true
  call : after.call = current.call
  parked : after.state.parked = current.state.parked

/-- The thread runs. -/
structure Runs (current after : ManagedThread) : Prop where
  state : after.state.currentState = .running
  asleep : after.state.awaken = false
  blocked : after.blocked = false
  call : after.call = current.call
  parked : after.state.parked = current.state.parked

variable (kind thread)

theorem setSuspendedAndPush_self (found : system.threadRegistry t = some current) :
    ∃ after, ((system.setSuspendedAndPushToRunnables kind t thread).onBlockedWaitingInVex t).threadRegistry t = some after ∧
      Suspends current after := by
  cases kind with
  | base | strict =>
    refine ⟨{ current with
      state := ((current.state.setSuspended.setTimedOut true).setTimeout (-1)).blockHereUntilSignaled
      blocked := true },?_,⟨rfl,rfl,rfl,rfl,rfl⟩⟩
    simp [setSuspendedAndPushToRunnables,found]
  | loose =>
    refine ⟨{ current with state := current.state.setSuspended.blockHereUntilSignaled,blocked := true },?_,
      ⟨rfl,rfl,rfl,rfl,rfl⟩⟩
    simp only [setSuspendedAndPushToRunnables]
    split_ifs <;> simp [found]

variable {kind thread} in
theorem setSuspendedAndPush_queue (pushes : pushesSuspended kind thread = true) :
    t ∈ (system.setSuspendedAndPushToRunnables kind t thread).runnableThreads := by
  cases kind with
  | base | strict => simp [setSuspendedAndPushToRunnables]
  | loose => simp [setSuspendedAndPushToRunnables,pushes]

theorem suspendSelf_self (listed : Bool) (found : system.threadRegistry t = some current) :
    ∃ after, (system.suspendSelf kind t thread listed).threadRegistry t = some after ∧ Suspends current after := by
  cases listed with
  | false => exact setSuspendedAndPush_self kind thread found
  | true =>
    refine ⟨{ current with state := current.state.setSuspended.blockHereUntilSignaled,blocked := true },?_,
      ⟨rfl,rfl,rfl,rfl,rfl⟩⟩
    simp [suspendSelf,found]

theorem setRunningThread_self (found : system.threadRegistry t = some current) :
    ∃ after, (system.setRunningThread kind t thread).threadRegistry t = some after ∧
      (Suspends current after ∨ Runs current after) := by
  unfold setRunningThread
  split_ifs
  · have asleep : (system.onState t fun state => state.setAwaken false).threadRegistry t =
        some { current with state := current.state.setAwaken false } := by simp [found]
    obtain ⟨after,there,suspends⟩ := suspendSelf_self kind thread (decide (t ∈ system.runnableThreads)) asleep
    exact ⟨after,there,Or.inl ⟨suspends.state,suspends.asleep,suspends.blocked,suspends.call,suspends.parked⟩⟩
  · refine ⟨{ current with state := (current.state.setAwaken false).setRunning,blocked := false },?_,
      Or.inr ⟨rfl,rfl,rfl,rfl,rfl⟩⟩
    cases kind with
    | base | strict => simp [found]
    | loose =>
      dsimp only
      split_ifs <;> simp [found]

theorem suspendLoose_self (found : system.threadRegistry t = some current) :
    ∃ after, (system.suspendLooseCurrentThread kind t thread).threadRegistry t = some after ∧
      (Suspends current after ∨ Runs current after) := by
  unfold suspendLooseCurrentThread
  split_ifs
  · exact setRunningThread_self kind thread found
  · obtain ⟨after,there,suspends⟩ := setSuspendedAndPush_self kind thread found
    exact ⟨after,there,Or.inl suspends⟩

/-- A thread that its manager already runs is left as it is. -/
theorem suspendCurrentThread_self (suspends listed : Bool) (found : system.threadRegistry t = some current) :
    (system.runs t thread ∧ system.suspendCurrentThread kind t thread suspends listed = system) ∨
      ∃ after, (system.suspendCurrentThread kind t thread suspends listed).threadRegistry t = some after ∧
        (Suspends current after ∨ Runs current after) := by
  unfold suspendCurrentThread
  split_ifs with suspended running
  · right
    obtain ⟨after,there,rests⟩ := suspendSelf_self kind thread listed found
    exact ⟨after,there,Or.inl rests⟩
  · exact Or.inl ⟨running,rfl⟩
  · exact Or.inr (setRunningThread_self kind thread (by simpa using found))
  · exact Or.inr (setRunningThread_self kind thread found)

/-! ## What the scheduler does with a thread -/

variable {kind thread} {manager : Nat} {answers : Answers} {next : System}

/-- The thread has been resumed by a manager. -/
def resumed (manager : Nat) (thread : ManagedThread) : ManagedThread :=
  { thread with state := thread.state.onThreadResumeByManager,threadCurrentlyControllingManager := manager }

theorem resumeThread_cases (continued : system.resumeThread kind t thread manager answers = some next) :
    (next = system.push t ∧ ¬ isValidToLeap thread answers) ∨
      (thread.blocked = true ∧ next = system.onThread t (resumed manager)) := by
  unfold resumeThread at continued
  split_ifs at continued with tooFar blocked
  · cases continued
    exact Or.inl ⟨rfl,tooFar.2.2.1⟩
  · cases continued
    exact Or.inr ⟨blocked,rfl⟩

/-- The last case is that of a thread that no branch handles, or whose branch does nothing. -/
theorem continuePoppedThread_cases (continued : system.continuePoppedThread kind t thread manager answers = some next) :
    next = system.push t ∨
    (thread.state.currentState = .suspended ∧ thread.blocked = true ∧ next = system.onThread t (resumed manager)) ∨
    (thread.state.isTimedWaiting = true ∧ thread.blocked = true ∧
      next = (((system.onAnyReplacedWaitingInterrupt t thread).onState t fun state => state.setTimedOut true).onThread t
        (resumed manager))) ∨
    (thread.state.currentState = .learningIo ∧ thread.timeScaled = false ∧
      next = system.onThread t fun thread => { thread with state := thread.state.setTimedOut true,alarms := thread.alarms + 1 }) ∨
    (thread.state.isSimulatingModel = true ∧ next = system.resumeModelSimulation t thread manager answers) ∨
    (thread.state.isWaitingRealCodeToCompleteAfterModelSimulation = true ∧
      next = system.pollThreadToCheckIfActuallyRunning t answers) ∨
    ((thread.state.currentState = .inIo ∨ (thread.state.currentState = .learningIo ∧ thread.timeScaled = true) ∨
      (thread.state.isSuspended = false ∧ thread.state.inIo = false ∧ thread.state.isTimedWaiting = false ∧
        thread.state.isSimulatingModel = false ∧
        thread.state.isWaitingRealCodeToCompleteAfterModelSimulation = false)) ∧ next = system) := by
  unfold continuePoppedThread at continued
  split_ifs at continued with suspended resumable io timed simulating waitingRealCode running
  · obtain ⟨rfl,-⟩ | ⟨blocked,rfl⟩ := resumeThread_cases continued
    · exact Or.inl rfl
    · exact Or.inr (Or.inl ⟨by simpa [VexThreadState.isSuspended] using suspended,blocked,rfl⟩)
  · cases continued
    exact Or.inl rfl
  · unfold handleIOPerformingThread interruptTimedOutIoThread at continued
    split_ifs at continued with predicted scaled untimed leaps
    · cases continued
      exact Or.inr (Or.inr (Or.inr (Or.inr (Or.inr (Or.inr ⟨Or.inl predicted,rfl⟩)))))
    · cases continued
      have learning : thread.state.currentState = .learningIo := by
        simpa [VexThreadState.inIo,predicted] using io
      exact Or.inr (Or.inr (Or.inr (Or.inr (Or.inr (Or.inr ⟨Or.inr (Or.inl ⟨learning,scaled⟩),rfl⟩)))))
    · cases continued
      have learning : thread.state.currentState = .learningIo := by
        simpa [VexThreadState.inIo,predicted] using io
      exact Or.inr (Or.inr (Or.inr (Or.inl ⟨learning,by simpa using scaled,rfl⟩)))
    · cases continued
      exact Or.inl rfl
  · unfold interruptTimedWaitingThread at continued
    split_ifs at continued with leaps
    · obtain ⟨-,refused⟩ | ⟨blocked,rfl⟩ := resumeThread_cases continued
      · -- the leap stays valid, so that no manager puts the thread back
        refine absurd ?_ refused
        simpa [isValidToLeap,VexThreadState.beforeThreadInterrupt_eq,VexThreadState.setTimedOut] using leaps
      · exact Or.inr (Or.inr (Or.inl ⟨timed,blocked,rfl⟩))
    · cases continued
      exact Or.inl rfl
  · cases continued
    exact Or.inr (Or.inr (Or.inr (Or.inr (Or.inl ⟨simulating,rfl⟩))))
  · cases continued
    exact Or.inr (Or.inr (Or.inr (Or.inr (Or.inr (Or.inl ⟨waitingRealCode,rfl⟩)))))
  · cases continued
    refine Or.inr (Or.inr (Or.inr (Or.inr (Or.inr (Or.inr ⟨Or.inr (Or.inr ?_),rfl⟩)))))
    simp_all

theorem continueThread_cases (continued : system.continueThread kind t thread manager answers = some next) :
    (getNextIfEqualsElseReturnTop thread manager = .nothing ∧ next = system) ∨
    (getNextIfEqualsElseReturnTop thread manager = .listed ∧
      system.continuePoppedThread kind t thread manager answers = some next) ∨
    (getNextIfEqualsElseReturnTop thread manager = .popped ∧
      (system.erase t).continuePoppedThread kind t thread manager answers = some next) := by
  unfold continueThread at continued
  split at continued
  · next nothing =>
    cases continued
    exact Or.inl ⟨nothing,rfl⟩
  · next listed => exact Or.inr (Or.inl ⟨listed,continued⟩)
  · next popped => exact Or.inr (Or.inr ⟨popped,continued⟩)

end System

end Vexjine.ManagedThreads
