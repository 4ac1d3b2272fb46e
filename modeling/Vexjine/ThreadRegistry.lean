import Vexjine.Runs
import Vexjine.VexThreadState

/-!
# The thread registry

Threads announce the threads they are about to create, which register themselves
when they start, may be joined, and leave the registry when they end. A step is
one critical section of the registry's mutex, or what a thread does alone between
two of them. The state objects are named by the threads that construct them; the
thread-local pointer to a thread's state is a slot, which a later thread may get
once the operating system has freed it.
-/

namespace Vexjine.ThreadRegistry
set_option linter.unusedSimpArgs false
set_option linter.unusedSectionVars false

/-- How far a thread of the operating system has come. A thread that is not part of VEX is outside;
    one that has found a state under its own thread id handles that state instead of a new one. -/
inductive Position
  | absent
  | created
  | checked
  | constructed
  | registered
  | dead
  | removed
  | ended
  | outside
  | misled
  deriving DecidableEq

/-- A thread: its position, its slot and its id for the operating system, and the fields of its state. -/
structure ThreadState (Slot : Type) where
  position : Position
  slot : Option Slot
  tid : Int64
  uniqueId : Int64
  name : String
  currentState : Code
  estimatedRealTime : Int
  awakeningFromJoin : Bool
  parentThreadWaitingYouToJoin : Option Slot

/-- The registry, the threads and their slots. No step reads `unborn`, the announced threads that have
    neither registered nor been excluded, or `joiners`, which keeps who has registered to join a thread,
    the last one first. -/
structure State (Thread Slot : Type) where
  threadStateIndex : Int64 → Option Thread
  parentThreadIdsToTheirERTs : Int64 → Option Int
  threadsBeingSpawned : Nat
  mainThreadState : Option Thread
  mainDefined : Bool
  totalThreadsControlled : Nat
  threads : Thread → ThreadState Slot
  /-- What the slots point to. -/
  currentThreadState : Slot → Option Thread
  /-- The threads that have the slots. -/
  owner : Slot → Option Thread
  unborn : List Int64
  joiners : Thread → List Thread

/-- Before the first thread. -/
def initial (Thread Slot : Type) : State Thread Slot where
  threadStateIndex := fun _ => none
  parentThreadIdsToTheirERTs := fun _ => none
  threadsBeingSpawned := 0
  mainThreadState := none
  mainDefined := false
  totalThreadsControlled := 0
  threads := fun _ => ⟨.absent,none,0,0,"",.registering,0,false,none⟩
  currentThreadState := fun _ => none
  owner := fun _ => none
  unborn := []
  joiners := fun _ => []

/-- An excluded name contains the thread's name, as the comparison is written. -/
def isThreadInExcludedThreadNamesList (excludedThreadsList : List String) (threadName : String) : Bool :=
  excludedThreadsList.any fun excludedThread =>
    decide (excludedThread = threadName) || decide (threadName.toList <:+: excludedThread.toList)

namespace State
variable {Thread Slot : Type} [DecidableEq Thread] [DecidableEq Slot] (state : State Thread Slot)

def onThread (t : Thread) (change : ThreadState Slot → ThreadState Slot) : State Thread Slot :=
  { state with threads := Function.update state.threads t (change (state.threads t)) }

def setPosition (t : Thread) (position : Position) : State Thread Slot :=
  state.onThread t fun thread => { thread with position }

def setAwakeningFromJoin (t : Thread) : State Thread Slot :=
  state.onThread t fun thread => { thread with awakeningFromJoin := true }

def setSlot (slot : Slot) (content : Option Thread) : State Thread Slot :=
  { state with currentThreadState := Function.update state.currentThreadState slot content }

def setOwner (slot : Slot) (owner : Option Thread) : State Thread Slot :=
  { state with owner := Function.update state.owner slot owner }

/-! ## `ThreadRegistry` -/

def getCurrentThreadState (threadId : Int64) : Option Thread := state.threadStateIndex threadId

def hasThreadParentRegisteredThisThread (newlySpawnedThreadId : Int64) : Bool :=
  (state.parentThreadIdsToTheirERTs newlySpawnedThreadId).isSome

def atLeastOneThreadBeingSpawned : Bool := decide (state.threadsBeingSpawned ≠ 0)

/-- `none` where a parent other than the one of the main thread is not registered. -/
def newThreadBeingSpawned (parentThreadId threadToBeSpawnedApplicationLanguageId : Int64) :
    Option (State Thread Slot) :=
  let announce (time : Int) : State Thread Slot := { state with
    parentThreadIdsToTheirERTs :=
      Function.update state.parentThreadIdsToTheirERTs threadToBeSpawnedApplicationLanguageId (some time)
    threadsBeingSpawned := state.threadsBeingSpawned + 1
    unborn := if threadToBeSpawnedApplicationLanguageId ∈ state.unborn then state.unborn
      else threadToBeSpawnedApplicationLanguageId :: state.unborn }
  match state.threadStateIndex parentThreadId with
  | some parent => some (announce (state.threads parent).estimatedRealTime)
  | none => if parentThreadId = 0 then some (announce 0) else none

/-- `--threadsBeingSpawned` unless it is zero; of the thread with the id. -/
def newThreadStarted (threadId : Int64) : State Thread Slot := { state with
  threadsBeingSpawned := state.threadsBeingSpawned - 1
  unborn := state.unborn.erase threadId }

/-- A thread that nobody has announced keeps its time. -/
def add (t : Thread) : State Thread Slot :=
  let threadId := (state.threads t).uniqueId
  let time := (state.parentThreadIdsToTheirERTs threadId).getD (state.threads t).estimatedRealTime
  let isMain := decide ((state.threads t).name = "main")
  ({ state with
    threadStateIndex := Function.update state.threadStateIndex threadId (some t)
    parentThreadIdsToTheirERTs := Function.update state.parentThreadIdsToTheirERTs threadId none
    mainThreadState := if isMain then some t else state.mainThreadState
    mainDefined := isMain || state.mainDefined
    totalThreadsControlled := state.totalThreadsControlled + 1 }.newThreadStarted threadId).onThread t
      fun thread => { thread with estimatedRealTime := time,position := .registered }

/-- Writes to whatever the recorded slot points to by now. -/
def notifyParentWaitingForYouToJoin (t : Thread) : State Thread Slot :=
  match (state.threads t).parentThreadWaitingYouToJoin.bind state.currentThreadState with
  | some parent => state.setAwakeningFromJoin parent
  | none => state

def remove (t : Thread) : State Thread Slot :=
  let notified := state.notifyParentWaitingForYouToJoin t
  { notified with
    threadStateIndex := Function.update state.threadStateIndex (state.threads t).uniqueId none
    mainThreadState := if state.mainThreadState = some t then none else state.mainThreadState }.setPosition t .removed

/-- `none` where it returns false. -/
def coordinateJoiningThreads (t : Thread) (joiningThreadId : Int64) : Option (State Thread Slot) :=
  if 0 < state.threadsBeingSpawned then none
  else match state.threadStateIndex joiningThreadId with
    | some otherThread =>
      if (state.threads otherThread).currentState ≠ .vexZombie then
        some { state.onThread otherThread fun thread =>
            { thread with parentThreadWaitingYouToJoin := (state.threads t).slot } with
          joiners := Function.update state.joiners otherThread (t :: state.joiners otherThread) }
      else some (state.setAwakeningFromJoin t)
    | none => some (state.setAwakeningFromJoin t)

/-! ## What a thread does between two critical sections -/

/-- The constructor of `VexThreadState`, which also fills the slot of the thread. -/
def construct (t : Thread) : State Thread Slot :=
  let constructed := state.onThread t fun thread => { thread with
    position := .constructed
    currentState := .registering
    estimatedRealTime := 0
    awakeningFromJoin := false
    parentThreadWaitingYouToJoin := none }
  match (state.threads t).slot with
  | some slot => constructed.setSlot slot (some t)
  | none => constructed

/-- A forced suspension of the state `other` by a thread that takes it for its own: the thread's CPU time
    is added; `suspends` is whether there are runnable threads or the state should be suspended anyway. -/
def suspendCurrentThread (other : Thread) (timeAdded : Nat) (suspends : Bool) : State Thread Slot :=
  state.onThread other fun thread => { thread with
    estimatedRealTime := thread.estimatedRealTime + timeAdded
    currentState := if suspends || state.atLeastOneThreadBeingSpawned then .suspended else thread.currentState }

/-- The destructor of `VexThreadState` empties the slot of the thread that runs it. -/
def cleanup (t : Thread) : State Thread Slot :=
  let ended := state.setPosition t .ended
  match (state.threads t).slot with
  | some slot => ended.setSlot slot none
  | none => ended

/-! ## `ThreadEventsBehaviour::onStart` -/

/-- The checks of a thread that starts: it is excluded, or not announced, or goes on. -/
def checkThread (excludedThreadsList : List String) (t : Thread) (threadId : Int64) (threadName : String) :
    State Thread Slot :=
  if isThreadInExcludedThreadNamesList excludedThreadsList threadName then
    (state.newThreadStarted threadId).setPosition t .outside
  else if state.hasThreadParentRegisteredThisThread threadId then
    state.onThread t fun thread => { thread with position := .checked,uniqueId := threadId,name := threadName }
  else state.setPosition t .outside

/-- The index is asked for the id that the operating system has given to the thread. -/
def findOrConstruct (t : Thread) (timeAdded : Nat) (suspends : Bool) : State Thread Slot :=
  match state.getCurrentThreadState (state.threads t).tid with
  | none => state.construct t
  | some other => (state.suspendCurrentThread other timeAdded suspends).setPosition t .misled

/-- Up to the first suspension of the new thread. -/
def onStart (excludedThreadsList : List String) (t : Thread) (threadId : Int64) (threadName : String) (timeAdded : Nat)
    (suspends : Bool) : State Thread Slot :=
  let checked := state.checkThread excludedThreadsList t threadId threadName
  if (checked.threads t).position = .checked then
    let found := checked.findOrConstruct t timeAdded suspends
    if (found.threads t).position = .constructed then found.add t else found
  else checked

end State

/-! ## Steps -/

/-- Of any threads; times progress as they like. -/
inductive Event (Thread Slot : Type)
  | createThread (t : Thread) (slot : Slot) (tid : Int64)
  | beforeCreatingThread (t : Thread) (threadToBeSpawnedApplicationLanguageId : Int64)
  | onThreadMainStart (t : Thread) (threadId : Int64)
  | checkThread (t : Thread) (threadId : Int64) (threadName : String)
  | findOrConstruct (t : Thread) (timeAdded : Nat) (suspends : Bool)
  | add (t : Thread)
  | setEstimatedRealTime (t : Thread) (estimatedRealTime : Int)
  | coordinateJoiningThreads (t : Thread) (joiningThreadId : Int64)
  | onWrappedWaiting (t : Thread)
  | setDead (t : Thread)
  | remove (t : Thread)
  | cleanup (t : Thread)
  | exitThread (t : Thread)
  deriving DecidableEq

variable {Thread Slot : Type} [DecidableEq Thread] [DecidableEq Slot]

/-- One step; `none` where the thread is not at it, or an assertion fails. -/
def step (excludedThreadsList : List String) (state : State Thread Slot) : Event Thread Slot → Option (State Thread Slot)
  | .createThread t slot tid =>
    if (state.threads t).position = .absent ∧ state.owner slot = none then
      some (((state.onThread t fun thread =>
        { thread with position := .created,slot := some slot,tid }).setSlot slot none).setOwner slot (some t))
    else none
  | .beforeCreatingThread t id =>
    if (state.threads t).position = .registered then state.newThreadBeingSpawned (state.threads t).uniqueId id else none
  | .onThreadMainStart t threadId =>
    if (state.threads t).position = .created then state.newThreadBeingSpawned 0 threadId else none
  | .checkThread t threadId threadName =>
    if (state.threads t).position = .created then some (state.checkThread excludedThreadsList t threadId threadName)
    else none
  | .findOrConstruct t timeAdded suspends =>
    if (state.threads t).position = .checked then some (state.findOrConstruct t timeAdded suspends) else none
  | .add t => if (state.threads t).position = .constructed then some (state.add t) else none
  | .setEstimatedRealTime t estimatedRealTime =>
    if (state.threads t).position = .registered then
      some (state.onThread t fun thread => { thread with estimatedRealTime })
    else none
  | .coordinateJoiningThreads t joiningThreadId =>
    if (state.threads t).position = .registered then state.coordinateJoiningThreads t joiningThreadId else none
  -- at the start and at the end of a wait
  | .onWrappedWaiting t =>
    if (state.threads t).position = .registered then
      some (state.onThread t fun thread => { thread with awakeningFromJoin := false })
    else none
  | .setDead t =>
    if (state.threads t).position = .registered then
      some (state.onThread t fun thread => { thread with position := .dead,currentState := .vexZombie })
    else none
  | .remove t => if (state.threads t).position = .dead then some (state.remove t) else none
  | .cleanup t => if (state.threads t).position = .removed then some (state.cleanup t) else none
  | .exitThread t =>
    if (state.threads t).position = .ended ∨ (state.threads t).position = .outside ∨ (state.threads t).position = .misled then
      (state.threads t).slot.map fun slot => (state.onThread t fun thread => { thread with slot := none }).setOwner slot none
    else none

end Vexjine.ThreadRegistry
