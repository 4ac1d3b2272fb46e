import Vexjine.Mutexes
import Vexjine.ThreadTimers
import Vexjine.VexThreadState

/-!
# The server of the distributed scheduler

The server services the requests of its clients' threads. Its data are the threads it
knows, which of them runs and which are runnable, the timeline, and what it has
written to its clients. The helpers without a lock are functions on the data; the
others are programs over the data behind the manager's mutex.
-/

namespace Vexjine.ManagerServer
open Vexjine.Mutexes (Locking read write lock)
open Vexjine.MutexTriples Vexjine.VirtualTimeline Vexjine.ThreadTimers
open Vexjine.Floats (toLongLong)

/-! ## Data -/

/-- The server's state of a thread. -/
structure RemoteThread where
  currentState : Code := .registering
  timers : Timers := {}
  lastCPUTime : Int := 0
  timeScalingFactor : Rat := 1
  timedOut : Bool := true
  awaken : Bool := false
  forceSuspend : Bool := false
  suspendingAllowed : Bool := true
  hasControllingManager : Bool := false
  managingSchedulerFd : Nat := 0
  threadResponseFd : Nat := 0
  lastIoPrediction : Int := 0

namespace RemoteThread
variable (thread : RemoteThread)

def isManagedLocally : Bool := thread.managingSchedulerFd = 0

def inIoLearningPhase : Bool := thread.currentState = .learningIo

def inIoPredictionPhase : Bool := thread.currentState = .inIo

def inIo : Bool := thread.inIoPredictionPhase || thread.inIoLearningPhase

def setNewState (currentState : Code) : RemoteThread := { thread with currentState }

def setSuspended : RemoteThread := { thread.setNewState .suspended with awaken := false }

def setTimers (timers : Timers) : RemoteThread := { thread with timers }

/-- A duration multiplied with the thread's scaling factor; the server's global one is 1. -/
def scaled (time : Int) : Int := (toLongLong (ThreadTimers.scaled thread.timeScalingFactor 1 time)).toInt

/-- `leapToGlobalTime` -/
def leapToGlobalTime (time : Int) : RemoteThread :=
  if thread.timers.dontUpdateToGlobalTime then thread else thread.setTimers (thread.timers.setEstimatedRealTime time)

/-- The state released from its manager. -/
def setNativeWaiting : RemoteThread := { thread.setNewState .nativeWaiting with hasControllingManager := false }

def setWaiting : RemoteThread := { thread.setNewState .waiting with timedOut := true }

def setTimedWaiting (timeout : Int) : RemoteThread :=
  { thread.setWaiting with
    awaken := false
    timers := thread.timers.updateTimesBeforeWaitingWithTimeout thread.timeScalingFactor 1 timeout }

/-- `beforeThreadInterruptAt`; the server's threads are never parked. -/
def beforeThreadInterruptAt : RemoteThread :=
  { (if thread.timers.timeout < 0 then thread.setTimers (thread.timers.setTimeout 0) else thread).setSuspended with
    timedOut := false }

end RemoteThread

/-- The kinds of requests that the server sends to the listener of a client. -/
inductive ListenerCode where
  | suspendThread | resumeThread | timedWaitingEndThread | processExit
  deriving DecidableEq

/-- What the server writes. -/
inductive Payload (Thread : Type) where
  | longLong (value : Int)
  | bool (value : Bool)
  | state (t : Thread)
  | times (virtualTime estimatedRealTime : Int)
  | short (intention : Int)
  | request (code : ListenerCode) (t : Option Thread) (timestamp : Int)
  deriving DecidableEq

/-- The five options as flags. -/
structure Options where
  dontUpdateThreadTime : Bool := false
  forceSuspend : Bool := false
  threadAlreadyInList : Bool := false
  dontWakeUpScheduler : Bool := false
  dontNotifyClient : Bool := false
  deriving DecidableEq

/-- `cpuTime` is what the next reading of the CPU clock returns. -/
structure Server (Thread : Type) where
  threads : Thread → RemoteThread
  registry : List Thread := []
  threadsBeingSpawned : Nat := 0
  runningThread : Option Thread := none
  runnableThreads : List Thread := []
  schedulerWaitingForTimeslotExpiry : Bool := false
  timeWaitingFactorChanged : Bool := false
  schedulerTimeslot : Int := 1000000
  pendingIoCalls : Int := 0
  timeline : Times 0 := {}
  cpuTime : Int := 0
  written : List (Nat × Payload Thread) := []

variable {Thread : Type} [DecidableEq Thread]

namespace Server
variable (server : Server Thread) (t : Thread)

def getGlobalTime : Int := server.timeline.globalVirtualTime

def onThread (change : RemoteThread → RemoteThread) : Server Thread :=
  { server with threads := Function.update server.threads t (change (server.threads t)) }

def onTimers (change : Timers → Timers) : Server Thread :=
  server.onThread t fun thread => thread.setTimers (change thread.timers)

/-- Progress of the timeline, whose own mutex is free. -/
def onTimeline (program : Locking (Times 0) Unit) : Server Thread :=
  { server with timeline := (program ⟨server.timeline,false⟩).elim server.timeline fun result => result.2.data }

/-- `serverMessageWrite` -/
def serverMessageWrite (fd : Nat) (payload : Payload Thread) : Server Thread :=
  { server with written := server.written ++ [(fd,payload)] }

/-- A runnable thread with the least time. -/
def top : Option Thread := server.runnableThreads.find? fun t => server.runnableThreads.all fun other =>
  (server.threads t).timers.estimatedRealTime ≤ (server.threads other).timers.estimatedRealTime

def pushRunnable : Server Thread :=
  if t ∈ server.runnableThreads then server else { server with runnableThreads := t :: server.runnableThreads }

def eraseRunnable : Server Thread := { server with runnableThreads := server.runnableThreads.erase t }

def unsetCurrentThreadFromRunningThread : Server Thread :=
  if server.runningThread = some t then { server with runningThread := none } else server

def anotherThreadAlreadySetRunning : Bool := server.runningThread ≠ none ∧ server.runningThread ≠ some t

/-- The caller is told whether the thread is now set running. -/
def changeThreadStateToRunning : Bool × Server Thread :=
  if server.anotherThreadAlreadySetRunning t then (false,server)
  else (true,{ server.onThread t fun thread => { thread.setNewState .running with hasControllingManager := true } with
    runningThread := some t })

def setWaitingThread : Server Thread :=
  (server.unsetCurrentThreadFromRunningThread t).onThread t RemoteThread.setWaiting

def setNativeWaiting : Server Thread := server.onThread t RemoteThread.setNativeWaiting

def setTimedWaitingThread : Server Thread := (server.setWaitingThread t).pushRunnable t

def setSuspendedAndPushToRunnables : Server Thread :=
  ((server.unsetCurrentThreadFromRunningThread t).onThread t fun thread =>
    { thread.setSuspended with timedOut := true,timers := thread.timers.setTimeout (-1) }).pushRunnable t

/-- The local time of a native waiting thread is of an unknown period. -/
def locklessUpdateTimeBy (timeDiff : Int) : Server Thread :=
  let server := server.onThread t fun thread => thread.setTimers (thread.timers.addLocalTime (thread.scaled timeDiff))
  if (server.threads t).currentState = .nativeWaiting then
    server.onTimeline (commitNativeWaitingProgress (server.threads t).timers)
  else server.onTimeline (commitCpuTimeProgress (server.threads t).timers)

def updateCurrentThreadVT : Server Thread :=
  let timeDiff := server.cpuTime - (server.threads t).lastCPUTime
  (if 0 < timeDiff then server.locklessUpdateTimeBy t timeDiff else server).onThread t fun thread =>
    { thread with lastCPUTime := server.cpuTime }

def setCurrentThreadVT (startingTime : Int) : Server Thread :=
  let timeDiff := startingTime - (server.threads t).lastCPUTime
  if 0 < timeDiff then server.locklessUpdateTimeBy t timeDiff else server

def isNextRunnableThreadBefore (timestamp : Int) : Bool :=
  server.top.any fun next => (server.threads next).timers.estimatedRealTime < timestamp

/-- The flag that forces the thread to suspend is reset by the first test. -/
def shouldCurrentThreadSuspend : Bool × Server Thread :=
  let thread := server.threads t
  (thread.forceSuspend || !thread.hasControllingManager || server.anotherThreadAlreadySetRunning t ||
      (thread.suspendingAllowed &&
        3 * server.schedulerTimeslot ≤ 4 * (thread.timers.estimatedRealTime - thread.timers.resumedLastAt) &&
        server.isNextRunnableThreadBefore thread.timers.estimatedRealTime),
    server.onThread t fun thread => { thread with forceSuspend := false })

def onAnyReplacedWaitingInterrupt (interruptTime : Int) : Server Thread :=
  let thread := server.threads t
  let time := if interruptTime = 0 ∧ thread.timers.dontUpdateToGlobalTime = false then server.getGlobalTime else interruptTime
  let interrupted := server.onThread t fun thread =>
    (thread.setTimers (thread.timers.setEstimatedRealTime time)).beforeThreadInterruptAt
  if thread.timers.timeout ≠ 0 ∧ thread.timers.timeout ≠ -2 then interrupted else interrupted.pushRunnable t

def setIoAndCheckIfOperationShouldBlockSimulationProgress (learning : Bool) : Bool × Server Thread :=
  if learning then
    let thread := server.threads t
    (thread.timers.timeout ≠ -1,server.onThread t fun thread =>
      (thread.setNewState .learningIo).setTimers
        (if thread.timers.timeout ≠ -1 then thread.timers.addElapsedTime thread.timers.timeout else thread.timers))
  else (true,server.onThread t fun thread => thread.setNewState .inIo)

/-- The client is told when its thread may begin its I/O. -/
def setIoThread (learning : Bool) : Server Thread :=
  let (blocks,server) := (server.unsetCurrentThreadFromRunningThread t).setIoAndCheckIfOperationShouldBlockSimulationProgress t learning
  let server := if blocks then server.pushRunnable t else server
  let thread := server.threads t
  if thread.isManagedLocally then server else server.serverMessageWrite thread.threadResponseFd (.bool learning)

def sendRequestToClientListener (code : ListenerCode) (timestamp : Int) : Server Thread :=
  server.serverMessageWrite (server.threads t).managingSchedulerFd (.request code (some t) timestamp)

def notifyRemoteThreadForSchedulerDecisionOnIfItShouldSuspend (shouldSuspend : Bool) (options : Options) : Server Thread :=
  let thread := server.threads t
  if thread.isManagedLocally ∨ options.dontNotifyClient then server
  else server.serverMessageWrite thread.threadResponseFd (.bool shouldSuspend)

end Server

/-! ## Programs behind the manager's mutex -/

abbrev Program (Thread Result : Type) := Locking (Server Thread) Result

def unconditionalWakeup : Program Thread Unit := do
  lock
  write fun server => { server with schedulerWaitingForTimeslotExpiry := true }
  checkedUnlock

def conditionalWakeup (t : Thread) : Program Thread Unit := do
  if ← read fun server => decide (server.runnableThreads ≠ [] ∧ server.top ≠ some t) then unconditionalWakeup

/-- The first branch of `suspendCurrentThread`: the thread leaves its core and the mutex is unlocked; a
    thread of this host then blocks, and runs again later. -/
def suspendSelf (t : Thread) (options : Options) : Program Thread Unit := do
  write fun server =>
    if options.threadAlreadyInList then
      (server.unsetCurrentThreadFromRunningThread t).onThread t RemoteThread.setSuspended
    else server.setSuspendedAndPushToRunnables t
  write fun server => server.notifyRemoteThreadForSchedulerDecisionOnIfItShouldSuspend t true options
  checkedUnlock

/-- Another thread that runs already makes the thread suspend itself, which unlocks the mutex. -/
def setRunningThread (t : Thread) : Program Thread Unit := do
  write fun server => server.onThread t fun thread => { thread with awaken := false }
  let (running,changed) ← read fun server => server.changeThreadStateToRunning t
  if running then
    write fun _ => changed.onTimers t fun timers => timers.leapForwardTo changed.getGlobalTime
  else
    let inList ← read fun server => decide (t ∈ server.runnableThreads)
    suspendSelf t { dontUpdateThreadTime := true,forceSuspend := true,threadAlreadyInList := inList }

/-- The test of `suspendCurrentThread`; a forced thread is suspended without the other tests. -/
def mustSuspend (t : Thread) (options : Options) : Program Thread Bool := do
  if options.forceSuspend ∧ (← read fun server => decide (server.runnableThreads ≠ [])) then return true
  let (suspends,tested) ← read fun server => server.shouldCurrentThreadSuspend t
  write fun _ => tested
  return suspends

/-- The last two branches of `suspendCurrentThread`. -/
def keepRunning (t : Thread) (options : Options) : Program Thread Unit := do
  if ← read fun server => decide (server.runningThread ≠ some t) then
    setRunningThread t
    write fun server => server.notifyRemoteThreadForSchedulerDecisionOnIfItShouldSuspend t false options
    write fun server => if options.threadAlreadyInList then server.eraseRunnable t else server
    checkedUnlock
  else
    write fun server => server.notifyRemoteThreadForSchedulerDecisionOnIfItShouldSuspend t false options
    checkedUnlock

/-- Expects the mutex held, and unlocks it. -/
def suspendCurrentThread (t : Thread) (startingTime : Int) (options : Options) : Program Thread Unit := do
  write fun server =>
    if options.dontUpdateThreadTime then server
    else if startingTime = 0 then server.updateCurrentThreadVT t
    else server.setCurrentThreadVT t startingTime
  if ← mustSuspend t options then suspendSelf t options else keepRunning t options

/-- `IoProtocolNormal::onStart`, for the prediction that the predictor returns. -/
def startIo (t : Thread) (prediction : Int) : Program Thread Unit := do
  write fun server => (server.onThread t fun thread => { thread with lastIoPrediction := prediction }).updateCurrentThreadVT t
  if prediction ≠ 0 then
    write fun server => server.onTimers t fun timers => timers.addElapsedTime prediction
    -- a delayed operation is executed only after the thread has been suspended
    if ← read fun server => decide (1 < (server.threads t).timeScalingFactor) then
      suspendCurrentThread t 0 { dontUpdateThreadTime := true,forceSuspend := true }
    write fun server => server.setIoThread t false
  else write fun server => server.setIoThread t true
  write fun server => { server with pendingIoCalls := server.pendingIoCalls + 1 }
  conditionalWakeup t

/-- The times of `IoProtocolNormal::onEnd` in the learning phase. -/
def Server.learnt (server : Server Thread) (t : Thread) (actualIoDuration : Int) : Server Thread :=
  if (server.threads t).timers.timeout ≠ -1 then
    server.onTimers t fun timers => timers.rollbackFromTimeOutValue.addElapsedTime actualIoDuration
  else server.onThread t fun thread => thread.setTimers (thread.timers.addLocalTime (thread.scaled actualIoDuration))

/-- `IoProtocolNormal::onEnd`. -/
def endIo (t : Thread) (actualIoDuration : Int) : Program Thread Unit := do
  let thread ← read fun server => server.threads t
  if thread.inIoLearningPhase then
    write fun server => server.learnt t actualIoDuration
    suspendCurrentThread t 0
      { dontUpdateThreadTime := true,threadAlreadyInList := decide (thread.timers.timeout ≠ -1) }
  else if thread.inIoPredictionPhase then
    write fun server => server.onTimers t fun timers => timers.addElapsedTime (actualIoDuration - thread.lastIoPrediction)
    suspendCurrentThread t 0 { dontUpdateThreadTime := true,threadAlreadyInList := true }
  write fun server => { server with pendingIoCalls := server.pendingIoCalls - 1 }

/-- The times of a remote thread are written to its client. -/
def onThreadIoEnd (t : Thread) (actualIoDuration : Int) : Program Thread Unit := do
  if ← read fun server => (server.threads t).inIo then endIo t actualIoDuration
  else
    -- recovery
    lock
    write fun server => server.onThread t fun thread => thread.leapToGlobalTime server.getGlobalTime
    let inList ← read fun server => decide (t ∈ server.runnableThreads)
    suspendCurrentThread t 0 { forceSuspend := true,dontUpdateThreadTime := true,threadAlreadyInList := inList }
  let thread ← read fun server => server.threads t
  if thread.isManagedLocally then pure ()
  else
    lock
    write fun server => server.serverMessageWrite thread.threadResponseFd (.times server.cpuTime thread.timers.estimatedRealTime)
    checkedUnlock

/-! ## Requests -/

/-- A request with the data of it that the server reads; `other` are the codes that it does not service. -/
inductive Request (Thread : Type) where
  | globalTime
  | addNewThreadState (newstate : Thread) (managingSchedulerFd : Nat)
  | wakeup | conditionalWakeup (state : Thread) | unconditionalWakeup
  | notifySchedulerForVt (state : Thread) (virtualTimeSpeedup : Rat)
  | shouldCurrentThreadSuspend (state : Thread)
  | setWaiting (state : Thread) | setNativeWaiting (state : Thread) | setTimedWaiting (state : Thread)
  | setIoThread (state : Thread) | setThreadRunnable (state : Thread)
  | updateGlobalTimeBy (state : Thread) (timestamp : Int)
  | updateCurrentTime (state : Thread) (timestamp : Int)
  | setCurrentTime (state : Thread) (timestamp : Int)
  | setCurrentTimeFromHandler (state : Thread) (timestamp : Int)
  | threadWaitingStart (state : Thread) (timestamp : Int)
  | setGlobalTime (state : Thread)
  | threadTimedWaitingStart (state : Thread) (timestamp : Int)
  | threadContendedEnter (state : Thread) (timestamp : Int)
  | threadEnd (state : Thread)
  | timedWaitingEnd (state : Thread) (timestamp : Int)
  | threadWasInterrupted (state : Thread) (timestamp : Int)
  | threadBeforeYield (state : Thread)
  | setRunning (state : Thread) | changeStateToRunning (state : Thread) | suspendThread (state : Thread)
  | trySuspendCurrentThread (state : Thread) (timestamp : Int) (options : Options)
  | ioStart (state : Thread) (timestamp prediction : Int)
  | ioEnd (state : Thread) (actualIoDuration : Int)
  | progressTimeBy | setGlobalTimeToThreadTime (state : Thread) | terminate | other
  deriving DecidableEq

/-- `locked` sections of a request: the mutex is locked, the data change, and it is unlocked. -/
def locked (change : Server Thread → Server Thread) : Program Thread Unit := do
  lock
  write change
  checkedUnlock

namespace Server
variable (server : Server Thread) (t : Thread)

def addNewThreadState (clientSockFd managingSchedulerFd : Nat) : Server Thread :=
  let thread : RemoteThread := { managingSchedulerFd }
  { (server.onThread t fun _ => thread.leapToGlobalTime server.getGlobalTime) with
    registry := server.registry ++ [t]
    threadsBeingSpawned := server.threadsBeingSpawned - 1 }.serverMessageWrite clientSockFd (.state t)

/-- The thread's time is written back to its client. -/
def writeTime (clientSockFd : Nat) : Server Thread :=
  server.serverMessageWrite clientSockFd (.longLong (server.threads t).timers.estimatedRealTime)

def setCurrentTimeFromHandler (clientSockFd : Nat) (timestamp : Int) : Server Thread :=
  let elapsed := (server.threads t).scaled timestamp
  let currentTime := if 0 < timestamp then elapsed else timestamp
  let server := if 0 < timestamp then
      let server := server.onTimers t fun timers => timers.addElapsedTime elapsed
      server.onTimeline (commitCpuTimeProgress (server.threads t).timers)
    else server
  let server := if (server.threads t).timers.timeout < 0 then
      server.onThread t fun thread => thread.leapToGlobalTime server.getGlobalTime
    else server
  (server.serverMessageWrite clientSockFd (.longLong currentTime)).onTimers t fun timers =>
    timers.setEstimatedRealTime currentTime

def threadWaitingStart (timestamp : Int) : Server Thread :=
  ((server.locklessUpdateTimeBy t timestamp).onThread t RemoteThread.setWaiting).unsetCurrentThreadFromRunningThread t

/-- The timestamp is the time at which the wait ends. -/
def threadTimedWaitingStart (timestamp : Int) : Server Thread :=
  (server.onThread t fun thread =>
    let waiting := thread.setTimedWaiting (timestamp - thread.timers.estimatedRealTime)
    waiting.setTimers (waiting.timers.setEstimatedRealTime timestamp)).setTimedWaitingThread t

def threadContendedEnter (timestamp : Int) : Server Thread :=
  ((server.locklessUpdateTimeBy t timestamp).onThread t fun thread =>
    (thread.setTimers (thread.timers.setTimeout 0)).setWaiting).unsetCurrentThreadFromRunningThread t

def endThread : Server Thread :=
  ((server.onTimeline (commitCpuTimeProgress (server.threads t).timers)).unsetCurrentThreadFromRunningThread t).onThread t
    fun thread => thread.setNewState .vexZombie

def noProcessThreadsLeft : Bool := server.threadsBeingSpawned = 0 ∧ server.registry = []

def timedWaitingEnd (timestamp : Int) : Server Thread :=
  server.onThread t fun thread =>
    (thread.setTimers ((thread.timers.setEstimatedRealTime timestamp).setTimeout (-1))).setSuspended

def threadBeforeYield : Server Thread :=
  match server.top with
  | none => server
  | some next => server.onTimers t fun timers =>
      timers.addElapsedTime ((server.threads next).timers.estimatedRealTime + server.schedulerTimeslot)

def requestSetRunning (clientSockFd : Nat) : Server Thread :=
  if server.anotherThreadAlreadySetRunning t then server.serverMessageWrite clientSockFd (.bool false)
  else
    let server := if (server.threads t).timers.estimatedRealTime < server.getGlobalTime then
        server.onThread t fun thread => thread.leapToGlobalTime server.getGlobalTime
      else server
    (server.changeThreadStateToRunning t).2.serverMessageWrite clientSockFd (.bool true)

def commitIoDuration : Server Thread := server.onTimeline (commitIoTimeProgress (server.threads t).timers)

end Server

open Server in
/-- The requests whose handlers lock the mutex themselves do so in `locked` or in the helpers. -/
def serviceClientRequest (clientSockFd : Nat) : Request Thread → Program Thread Unit
  | .globalTime => write fun server => server.serverMessageWrite clientSockFd (.longLong server.getGlobalTime)
  | .addNewThreadState newstate fd => locked fun server => server.addNewThreadState newstate clientSockFd fd
  | .wakeup | .conditionalWakeup _ | .unconditionalWakeup => pure ()
  | .notifySchedulerForVt t virtualTimeSpeedup => do
    write fun server => { (server.onThread t fun thread => { thread with timeScalingFactor := virtualTimeSpeedup }) with
      timeWaitingFactorChanged := true }
    unconditionalWakeup
  | .shouldCurrentThreadSuspend t => write fun server =>
    if (server.threads t).currentState = .suspended then server.serverMessageWrite clientSockFd (.bool false)
    else (server.shouldCurrentThreadSuspend t).2.serverMessageWrite clientSockFd (.bool (server.shouldCurrentThreadSuspend t).1)
  | .setWaiting t => write fun server => server.setWaitingThread t
  | .setNativeWaiting t => write fun server => server.setNativeWaiting t
  | .setTimedWaiting t => write fun server => server.setTimedWaitingThread t
  | .setIoThread _ | .progressTimeBy | .terminate | .other => pure ()
  | .setThreadRunnable t => write fun server => server.setSuspendedAndPushToRunnables t
  | .updateGlobalTimeBy t timestamp => write fun server => server.locklessUpdateTimeBy t timestamp
  | .updateCurrentTime t timestamp | .setCurrentTime t timestamp => write fun server =>
    (server.setCurrentThreadVT t timestamp).writeTime t clientSockFd
  | .setCurrentTimeFromHandler t timestamp => write fun server => server.setCurrentTimeFromHandler t clientSockFd timestamp
  | .threadWaitingStart t timestamp => do
    lock
    write fun server => server.threadWaitingStart t timestamp
    unconditionalWakeup
    checkedUnlock
  | .setGlobalTime t => write fun server => server.onThread t fun thread => thread.leapToGlobalTime server.getGlobalTime
  | .threadTimedWaitingStart t timestamp => do
    lock
    write fun server => server.threadTimedWaitingStart t timestamp
    unconditionalWakeup
    checkedUnlock
  | .threadContendedEnter t timestamp => do
    lock
    write fun server => server.threadContendedEnter t timestamp
    unconditionalWakeup
    checkedUnlock
  | .threadEnd t => do
    locked fun server => server.endThread t
    write fun server => { server with registry := server.registry.erase t }
    if ← read fun server => server.noProcessThreadsLeft then
      locked fun server => server.serverMessageWrite (server.threads t).managingSchedulerFd (.request .processExit none 0)
  | .timedWaitingEnd t timestamp => locked fun server => server.timedWaitingEnd t timestamp
  | .threadWasInterrupted t timestamp => locked fun server => server.onAnyReplacedWaitingInterrupt t timestamp
  | .threadBeforeYield t => locked fun server => server.threadBeforeYield t
  | .setRunning t => locked fun server => server.requestSetRunning t clientSockFd
  | .changeStateToRunning t => write fun server => (server.changeThreadStateToRunning t).2
  | .suspendThread t => write fun server => server.onThread t RemoteThread.setSuspended
  | .trySuspendCurrentThread t timestamp options => do
    write fun server => server.onThread t fun thread => { thread with threadResponseFd := clientSockFd }
    suspendCurrentThread t timestamp options
  | .ioStart t timestamp prediction => do
    write fun server => server.onThread t fun thread =>
      { thread with
        threadResponseFd := clientSockFd
        timers := { thread.timers with localTimeSinceLastResume := timestamp } }
    startIo t prediction
  | .ioEnd t actualIoDuration => onThreadIoEnd t actualIoDuration
  | .setGlobalTimeToThreadTime t => locked fun server => server.commitIoDuration t

end Vexjine.ManagerServer
