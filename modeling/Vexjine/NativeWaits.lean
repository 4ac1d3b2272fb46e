import Vexjine.AdaptiblePQueues
import Vexjine.VexThreadState

/-!
# Native waits

A thread that its signal handler declares native waiting is put into a queue of its own, whose top a scheduler
signals before each time slot. Only some of the code that ends a native wait takes the thread out of the queue,
and the queue is a heap over run times that change without it. Signal handlers are themselves interrupted by
signals; threads, their handlers and schedulers interleave.
-/

namespace Vexjine.NativeWaits
open Heaps ThreadQueue Runs
set_option linter.unusedSectionVars false

/-! ## One thread -/

/-- Where a thread is in its own code. -/
inductive Place
  | unregistered
  | outside
  | entering                  -- `inVex` is set, and the state is checked next
  | inside (checked : Bool)   -- in VEX, `checked` to be in no native wait
  | ended
  deriving DecidableEq

/-- Calls that have interrupted or suspended the thread's own code. -/
inductive Frame
  | handling                  -- `onSignalledFromScheduler`, from its first line
  | testing                   -- the thread is in no native wait, and asks if it is blocked
  | declaring                 -- blocked: the scheduler has been told to disregard the thread
  | deciding                  -- not blocked: the scheduler is told next
  | suspended                 -- waits in the handler
  | leaving (own : Bool)      -- `suspendLooseCurrentThread`, of its own code or of a handler
  | left (own : Bool)         -- the same, once the thread is out of the queue
  deriving DecidableEq

def Frame.isLeft : Frame → Bool
  | .left _ => true
  | _ => false

/-- What native waits depend on. `isControlled`: the thread has a controlling manager. -/
structure PolledThread where
  currentState : Code := .registering
  isControlled : Bool := false
  inVex : Bool := false
  place : Place := .unregistered
  /-- The innermost call is first. -/
  frames : List Frame := []
  signalled : Bool := false
  currentlyPolled : Bool := false
  /-- The state is that of a native wait that a handler of the thread has declared. -/
  declared : Bool := false

/-- What the registry is asked to do with its queue. -/
inductive RegistryCall
  | setNativeWaiting
  | unsetNativeWaiting
  | remove
  deriving DecidableEq

inductive Move
  -- schedulers and other threads
  /-- `suspendThread` and `pollThreadToCheckIfActuallyRunning`. -/
  | signal
  /-- The access key of the thread is not to be had in time; the registry is not told. -/
  | suspendThreadTimesOut
  /-- Also by the thread itself when it is set running. -/
  | setThreadCurrentlyControllingManager
  | setNewStateByOther (code : Code)
  -- handlers
  | deliver
  | onSignalledFromScheduler (stillBlocked : Bool)
  | isThreadBlockedInNativeWait (criteria : Bool)
  | setNativeWaiting
  | keepOnRunning
  | suspendInHandler
  | resumeInHandler (inSystemCall : Bool)
  -- `suspendLooseCurrentThread`
  | unsetNativeWaiting
  | setSuspendedAndPushToRunnables
  | setRunningThread
  -- the thread's own code
  | onThreadSpawn
  | onVexEntry
  /-- The check of `ensureThreadIsNotInNativeWaitingStateWhenEnteringVex`. -/
  | ensureThreadIsNotInNativeWaitingState
  /-- The end of a wrapped wait or of an I/O or modelled method sets `inVex` only, and another start of a
      thread and `getTime` do not even that. -/
  | enterUnchecked (setsInVex : Bool)
  /-- Also where modelled methods and I/O end: a thread without a manager is suspended. -/
  | getCurrentlyControllingManagerOf
  /-- The end of an I/O that the thread is still in. -/
  | onIoEnd
  | setNewState (code : Code)
  | onVexExit
  | onThreadEnd
  deriving DecidableEq

namespace PolledThread
variable (thread : PolledThread)

def isRunning : Bool := thread.currentState = .running || thread.currentState = .inSystemCall

def isNativeWaiting : Bool := thread.currentState = .nativeWaiting

def inIo : Bool := thread.currentState = .learningIo || thread.currentState = .inIo

/-- A state other than that of a native wait ends the declared one. -/
def setNewState (code : Code) : PolledThread :=
  { thread with currentState := code,declared := thread.declared && decide (code = .nativeWaiting) }

/-- The controlling manager is released. -/
def setNativeWaiting : PolledThread := { thread.setNewState .nativeWaiting with isControlled := false }

/-- What the registry does to the top of its queue. -/
def poll : PolledThread :=
  if thread.currentlyPolled then thread else { thread with currentlyPolled := true,signalled := true }

/-- The tests of the handler: for the real code of a model, a native wait and a missing manager. -/
def onSignalledFromScheduler (stillBlocked : Bool) (outer : List Frame) : PolledThread :=
  if thread.currentState = .afterModelSimWaitingForRealCode then { thread with frames := outer }
  else if thread.isNativeWaiting then
    if stillBlocked then { thread with frames := outer,currentlyPolled := false }
    else { thread with frames := .leaving false :: outer }
  else if thread.isControlled then { thread with frames := .testing :: outer }
  else { thread with frames := outer }

/-- `criteria`: those of the thread hold, and it is not to be suspended by force. -/
def isThreadBlockedInNativeWait (criteria : Bool) : Bool :=
  decide (thread.currentState ≠ .inSystemCall) && !thread.inVex && criteria

/-- What the thread itself does next, `none` where it cannot, with the call of the registry. -/
def handlerMove (outer : List Frame) : Frame → Move → Option (PolledThread × Option RegistryCall)
  | .handling, .onSignalledFromScheduler stillBlocked => some (thread.onSignalledFromScheduler stillBlocked outer,none)
  | .testing, .isThreadBlockedInNativeWait criteria =>
    some ({ thread with
      frames := (if thread.isThreadBlockedInNativeWait criteria then .declaring else .deciding) :: outer },none)
  | .declaring, .setNativeWaiting =>
    some ({ thread.setNativeWaiting with currentlyPolled := false,declared := true,frames := outer },
      some .setNativeWaiting)
  | .deciding, .keepOnRunning => some ({ thread with frames := outer },none)
  | .deciding, .suspendInHandler => some ({ thread.setNewState .suspended with frames := .suspended :: outer },none)
  | .suspended, .resumeInHandler inSystemCall =>
    some ({ thread.setNewState (if inSystemCall then .inSystemCall else .running) with
      isControlled := true
      frames := outer },none)
  | .leaving own, .unsetNativeWaiting => some ({ thread with frames := .left own :: outer },some .unsetNativeWaiting)
  | .left _, .setSuspendedAndPushToRunnables => some (thread.setNewState .suspended,none)
  | .left own, .setRunningThread =>
    some ({ thread.setNewState .running with
      isControlled := true
      place := if own then .inside thread.inVex else thread.place
      frames := outer },none)
  | _, _ => none

/-- In the thread's own code, `suspendLooseCurrentThread` is called where the checks fail. -/
def ownMove : Place → Move → Option (PolledThread × Option RegistryCall)
  | .unregistered, .onThreadSpawn => some ({ thread with place := .inside false },none)
  | .outside, .onVexEntry | .inside _, .onVexEntry => some ({ thread with inVex := true,place := .entering },none)
  | .outside, .enterUnchecked setsInVex =>
    some ({ thread with inVex := setsInVex || thread.inVex,place := .inside false },none)
  | .entering, .ensureThreadIsNotInNativeWaitingState =>
    some (if thread.isRunning && thread.isControlled then { thread with place := .inside true }
      else { thread with frames := [.leaving true] },none)
  | .inside _, .getCurrentlyControllingManagerOf =>
    some (if thread.isControlled then { thread with place := .inside thread.inVex }
      else { thread with frames := [.leaving true] },none)
  | .inside _, .onIoEnd => if thread.inIo then some ({ thread with place := .inside thread.inVex },none) else none
  | .inside _, .setNewState code => if code = .nativeWaiting then none else some (thread.setNewState code,none)
  | .inside _, .onVexExit => some ({ thread with inVex := false,place := .outside },none)
  | .inside _, .onThreadEnd => some ({ thread.setNewState .vexZombie with place := .ended },some .remove)
  | .ended, .onVexExit => some ({ thread with inVex := false },none)
  | _, _ => none

def move : Move → Option (PolledThread × Option RegistryCall)
  | .signal => some ({ thread with signalled := true },none)
  | .suspendThreadTimesOut => some (thread.setNativeWaiting,none)
  | .setThreadCurrentlyControllingManager => some ({ thread with isControlled := true },none)
  | .setNewStateByOther code => if code = .nativeWaiting then none else some (thread.setNewState code,none)
  | .deliver =>
    if thread.signalled ∧ thread.place ≠ .unregistered then
      some ({ thread with signalled := false,frames := .handling :: thread.frames },none)
    else none
  | move => match thread.frames with
    | [] => thread.ownMove thread.place move
    | frame :: outer => thread.handlerMove outer frame move

/-- The thread is about to be suspended or to run, and out of the queue. -/
def hasLeft : Bool := thread.frames.any Frame.isLeft

/-- The declared native wait lasts until the thread has been taken out to be suspended or to run. -/
def waitLasts : Bool := thread.declared && !thread.hasLeft

end PolledThread

/-! ## The registry -/

variable {Thread : Type*} [DecidableEq Thread]

/-- The run times are those of the queue, and those that its heap was last put in order by are kept beside it. -/
structure NwPollingThreadRegistry (Thread : Type*) where
  threads : Thread → PolledThread
  nativeWaitingThreadsPQueue : Queue Thread
  orderedBy : Thread → Int

inductive Event (Thread : Type*)
  | pollNativeWaitingThreads
  | change (thread : Thread) (change : Change)
  | move (thread : Thread) (move : Move)

namespace NwPollingThreadRegistry
variable (algorithms : HeapAlgorithms Thread Int) (registry : NwPollingThreadRegistry Thread)

def isQueued (thread : Thread) : Bool := decide (thread ∈ registry.nativeWaitingThreadsPQueue.threads)

def call (queue : Queue Thread) (thread : Thread) : RegistryCall → Queue Thread
  | .setNativeWaiting => queue.push algorithms thread
  | .unsetNativeWaiting => queue.erase algorithms thread
  | .remove => AdaptiblePQueues.eraseAll algorithms queue thread

/-- Each call puts the heap in order. -/
def after (thread : Thread) (moved : PolledThread) : Option RegistryCall → NwPollingThreadRegistry Thread
  | none => { registry with threads := Function.update registry.threads thread moved }
  | some registryCall =>
    { threads := Function.update registry.threads thread moved
      nativeWaitingThreadsPQueue := call algorithms registry.nativeWaitingThreadsPQueue thread registryCall
      orderedBy := registry.nativeWaitingThreadsPQueue.estimatedRealTime }

/-- A thread that is polled already is not signalled again. -/
def pollNativeWaitingThreads : NwPollingThreadRegistry Thread :=
  match registry.nativeWaitingThreadsPQueue.threads.head? with
  | none => registry
  | some top => registry.after algorithms top (registry.threads top).poll none

def step : Event Thread → Option (NwPollingThreadRegistry Thread)
  | .pollNativeWaitingThreads => some (registry.pollNativeWaitingThreads algorithms)
  | .change thread change =>
    some { registry with nativeWaitingThreadsPQueue := registry.nativeWaitingThreadsPQueue.change thread change }
  | .move thread move => ((registry.threads thread).move move).map fun moved =>
      registry.after algorithms thread moved.1 moved.2

def initial (estimatedRealTime : Thread → Int) : NwPollingThreadRegistry Thread where
  threads _ := {}
  nativeWaitingThreadsPQueue := ⟨[],estimatedRealTime⟩
  orderedBy := estimatedRealTime

/-! ## What must hold -/

/-- The queue holds exactly the threads whose declared native waits last. -/
structure Membership : Prop where
  once : registry.nativeWaitingThreadsPQueue.threads.Nodup
  exactly : ∀ thread, registry.isQueued thread = (registry.threads thread).waitLasts
  ended : ∀ thread, (registry.threads thread).place = .ended → registry.isQueued thread = false

/-- A heap with its least run time on top is polled. -/
def PollsHeap : Event Thread → Prop
  | .pollNativeWaitingThreads => registry.nativeWaitingThreadsPQueue.Valid
  | _ => True

end NwPollingThreadRegistry
open NwPollingThreadRegistry

/-! ## When it holds -/

/-- A handler declares a native wait of a thread that is not queued, has not ended and is not about to run; a thread
    that is queued gets no manager, and no state but through the checks. -/
def PolledThread.Fits (thread : PolledThread) (isQueued : Bool) : Move → Prop
  | .setNativeWaiting => isQueued = false ∧ thread.place ≠ .ended ∧ thread.hasLeft = false
  | .setThreadCurrentlyControllingManager | .setNewStateByOther _ => isQueued = false
  | .suspendInHandler | .resumeInHandler _ => thread.inVex = false → isQueued = false
  | .setNewState _ => thread.place = .inside false → isQueued = false
  | _ => True

/-- No queued thread has got another run time since the heap was last put in order. -/
def Ordered (registry : NwPollingThreadRegistry Thread) : Prop :=
  ∀ thread ∈ registry.nativeWaitingThreadsPQueue.threads,
    registry.nativeWaitingThreadsPQueue.estimatedRealTime thread = registry.orderedBy thread

def Fits (registry : NwPollingThreadRegistry Thread) : Event Thread → Prop
  | .pollNativeWaitingThreads => Ordered registry
  | .change _ _ => True
  | .move thread move => (registry.threads thread).Fits (registry.isQueued thread) move ∧
      (move = .setNativeWaiting → Ordered registry)

instance (thread : PolledThread) (isQueued : Bool) (move : Move) : Decidable (thread.Fits isQueued move) := by
  unfold PolledThread.Fits
  split <;> infer_instance

instance (registry : NwPollingThreadRegistry Thread) : Decidable (Ordered registry) := by
  unfold Ordered
  infer_instance

instance (registry : NwPollingThreadRegistry Thread) (event : Event Thread) : Decidable (Fits registry event) := by
  unfold Fits
  split <;> infer_instance

/-! ## Moves of a thread -/

/-- What holds of a thread, queued or not, in each state. -/
structure Fine (thread : PolledThread) (isQueued : Bool) : Prop where
  exactly : isQueued = thread.waitLasts
  waiting : thread.declared = true → thread.currentState = .nativeWaiting
  released : isQueued = true → thread.isControlled = false
  entered : thread.place = .entering ∨ thread.place = .inside true → thread.inVex = true
  checked : thread.place = .inside true → isQueued = false
  ended : thread.place = .ended → isQueued = false
  declaring : .declaring ∈ thread.frames → thread.inVex = false
  tested : .testing ∈ thread.frames ∨ .deciding ∈ thread.frames ∨ .suspended ∈ thread.frames →
    thread.inVex = true → isQueued = false

/-- Whether the thread is queued behind the call. -/
def queuedAfter (isQueued : Bool) : Option RegistryCall → Bool
  | none => isQueued
  | some .setNativeWaiting => true
  | some .unsetNativeWaiting | some .remove => false

section Moves
variable {thread next : PolledThread} {isQueued : Bool} {registryCall : Option RegistryCall} {outer : List Frame}
  {code : Code}

private theorem not_queued_of_state (fine : Fine thread isQueued) (other : thread.currentState ≠ .nativeWaiting) :
    isQueued = false := by
  rw [fine.exactly,PolledThread.waitLasts]
  cases declared : thread.declared with
  | false => rfl
  | true => exact absurd (fine.waiting declared) other

private theorem not_queued_of_left (fine : Fine thread isQueued) (left : thread.hasLeft = true) : isQueued = false := by
  rw [fine.exactly,PolledThread.waitLasts,left]
  simp

/-- Of a thread that is not queued, less is to be shown. -/
private theorem absent_fine (past : thread.waitLasts = false)
    (waiting : thread.declared = true → thread.currentState = .nativeWaiting)
    (entered : thread.place = .entering ∨ thread.place = .inside true → thread.inVex = true)
    (declaring : .declaring ∈ thread.frames → thread.inVex = false) : Fine thread false :=
  ⟨past.symm,waiting,nofun,entered,fun _ => rfl,fun _ => rfl,declaring,fun _ _ => rfl⟩

/-- Only a native wait goes on in its own state. -/
private theorem setNewState_declared (code : Code) (declared : (thread.setNewState code).declared = true) :
    code = .nativeWaiting :=
  of_decide_eq_true (Bool.and_eq_true_iff.mp declared).2

/-- Of calls that change, only those of `suspendLooseCurrentThread` behind the removal count. -/
private theorem frames_fine (fine : Fine thread isQueued) {frames : List Frame}
    (left : ({ thread with frames } : PolledThread).hasLeft = thread.hasLeft)
    (declaring : .declaring ∈ frames → thread.inVex = false)
    (tested : .testing ∈ frames ∨ .deciding ∈ frames ∨ .suspended ∈ frames → thread.inVex = true → isQueued = false) :
    Fine { thread with frames } isQueued where
  exactly := by
    rw [fine.exactly,PolledThread.waitLasts,PolledThread.waitLasts,left]
  waiting := fine.waiting
  released := fine.released
  entered := fine.entered
  checked := fine.checked
  ended := fine.ended
  declaring := declaring
  tested := tested

private theorem return_fine (fine : Fine thread isQueued) {frame : Frame} (frames : thread.frames = frame :: outer)
    (plain : frame.isLeft = false) : Fine { thread with frames := outer } isQueued := by
  refine frames_fine fine ?_ (fun member => fine.declaring ?_) fun member => fine.tested ?_
  · rw [PolledThread.hasLeft,PolledThread.hasLeft,frames,List.any_cons,plain,Bool.false_or]
  · rw [frames]
    exact List.mem_cons_of_mem _ member
  · rw [frames]
    exact member.imp (List.mem_cons_of_mem _) (Or.imp (List.mem_cons_of_mem _) (List.mem_cons_of_mem _))

/-- The innermost call goes on. -/
private theorem replace_fine (fine : Fine thread isQueued) {frame inner : Frame} (frames : thread.frames = frame :: outer)
    (plain : frame.isLeft = false) (innerPlain : inner.isLeft = false)
    (declaring : inner = .declaring → thread.inVex = false)
    (tested : inner = .testing ∨ inner = .deciding ∨ inner = .suspended → thread.inVex = true → isQueued = false) :
    Fine { thread with frames := inner :: outer } isQueued := by
  have returned := return_fine fine frames plain
  refine frames_fine fine ?_ ?_ ?_
  · rw [PolledThread.hasLeft,PolledThread.hasLeft,frames,List.any_cons,List.any_cons,plain,innerPlain]
  · intro member
    rcases List.mem_cons.mp member with same | below
    · exact declaring same.symm
    · exact returned.declaring below
  · intro member
    by_cases now : inner = .testing ∨ inner = .deciding ∨ inner = .suspended
    · exact tested now
    · refine returned.tested ?_
      simpa only [List.mem_cons,@eq_comm _ _ inner,or_assoc,or_iff_right (not_or.mp now).1,
        or_iff_right (not_or.mp (not_or.mp now).2).1,or_iff_right (not_or.mp (not_or.mp now).2).2] using member

private theorem setNewState_fine (fine : Fine thread isQueued) (absent : isQueued = false) (code : Code) :
    Fine (thread.setNewState code) isQueued := by
  subst absent
  refine absent_fine ?_ (setNewState_declared code) fine.entered fine.declaring
  change (thread.declared && decide (code = .nativeWaiting) && !thread.hasLeft) = false
  have before : (thread.declared && !thread.hasLeft) = false := fine.exactly.symm
  rw [Bool.and_right_comm,before,Bool.false_and]

private theorem controlled_fine (fine : Fine thread isQueued) (absent : isQueued = false) :
    Fine { thread with isControlled := true } isQueued := by
  subst absent
  exact absent_fine fine.exactly.symm fine.waiting fine.entered fine.declaring

private theorem place_fine (fine : Fine thread isQueued) {place : Place}
    (entered : place = .entering ∨ place = .inside true → thread.inVex = true)
    (checked : place = .inside true → isQueued = false) (ended : place = .ended → isQueued = false) :
    Fine { thread with place } isQueued where
  exactly := fine.exactly
  waiting := fine.waiting
  released := fine.released
  entered := entered
  checked := checked
  ended := ended
  declaring := fine.declaring
  tested := fine.tested

/-- Code in VEX that knows that the thread is not queued. -/
private theorem inside_fine (fine : Fine thread isQueued) (absent : isQueued = false) :
    Fine { thread with place := .inside thread.inVex } isQueued := by
  refine place_fine fine ?_ (fun _ => absent) (fun _ => absent)
  rintro (entering | inside)
  · contradiction
  · exact Place.inside.inj inside

private theorem unpolled_fine (fine : Fine thread isQueued) (signalled currentlyPolled : Bool) :
    Fine { thread with signalled,currentlyPolled } isQueued :=
  ⟨fine.exactly,fine.waiting,fine.released,fine.entered,fine.checked,fine.ended,fine.declaring,fine.tested⟩

private theorem poll_fine (fine : Fine thread isQueued) : Fine thread.poll isQueued := by
  rw [PolledThread.poll]
  by_cases polled : thread.currentlyPolled = true
  · rwa [if_pos polled]
  · rw [if_neg polled]
    exact unpolled_fine fine true true

/-! ## Handlers -/

private theorem handle_fine (fine : Fine thread isQueued) (frames : thread.frames = .handling :: outer)
    (stillBlocked : Bool) : Fine (thread.onSignalledFromScheduler stillBlocked outer) isQueued := by
  have returned : Fine { thread with frames := outer } isQueued := return_fine fine frames rfl
  rw [PolledThread.onSignalledFromScheduler]
  by_cases simulated : thread.currentState = .afterModelSimWaitingForRealCode
  · rwa [if_pos simulated]
  rw [if_neg simulated]
  by_cases waits : thread.isNativeWaiting = true
  · rw [if_pos waits]
    cases stillBlocked with
    | true => exact unpolled_fine returned thread.signalled false
    | false => exact replace_fine fine frames rfl rfl nofun nofun
  · rw [if_neg waits]
    by_cases controlled : thread.isControlled = true
    · rw [if_pos controlled]
      have absent := not_queued_of_state fine fun same => waits (decide_eq_true same)
      exact replace_fine fine frames rfl rfl nofun fun _ _ => absent
    · rwa [if_neg controlled]

private theorem test_fine (fine : Fine thread isQueued) (frames : thread.frames = .testing :: outer) (criteria : Bool) :
    Fine { thread with
      frames := (if thread.isThreadBlockedInNativeWait criteria then .declaring else .deciding) :: outer } isQueued := by
  by_cases blocked : thread.isThreadBlockedInNativeWait criteria = true
  · rw [if_pos blocked]
    refine replace_fine fine frames rfl rfl (fun _ => ?_) nofun
    rw [PolledThread.isThreadBlockedInNativeWait,Bool.and_eq_true,Bool.and_eq_true] at blocked
    simpa using blocked.1.2
  · rw [if_neg blocked]
    refine replace_fine fine frames rfl rfl nofun fun _ => fine.tested (.inl ?_)
    rw [frames]
    exact List.mem_cons_self

/-- The one way into the queue. -/
private theorem declare_fine (fine : Fine thread isQueued) (frames : thread.frames = .declaring :: outer)
    (present : thread.place ≠ .ended) (left : thread.hasLeft = false) :
    Fine { thread.setNativeWaiting with currentlyPolled := false,declared := true,frames := outer } true := by
  have outside : thread.inVex = false := fine.declaring (by rw [frames]; exact List.mem_cons_self)
  rw [PolledThread.hasLeft,frames,List.any_cons] at left
  exact {
    exactly := by
      change true = (true && !outer.any Frame.isLeft)
      rw [(Bool.or_eq_false_iff.mp left).2]
      rfl
    waiting := fun _ => rfl
    released := fun _ => rfl
    entered := fine.entered
    checked := by
      intro inside
      have entered := fine.entered (.inr inside)
      rw [outside] at entered
      contradiction
    ended := fun ended => absurd ended present
    declaring := fun _ => outside
    tested := by
      intro _ entered
      rw [show thread.inVex = true from entered] at outside
      contradiction }

/-- The removal. -/
private theorem leave_fine {own : Bool} (fine : Fine thread isQueued) (frames : thread.frames = .leaving own :: outer) :
    Fine { thread with frames := .left own :: outer } false := by
  have returned := return_fine fine frames rfl
  refine absent_fine ?_ fine.waiting fine.entered fun member => returned.declaring (by simpa using member)
  change (thread.declared && !(true || outer.any Frame.isLeft)) = false
  rw [Bool.true_or,Bool.not_true,Bool.and_false]

/-- The end of `suspendLooseCurrentThread`: the thread runs, and its own code goes on. -/
private theorem run_fine {own : Bool} (fine : Fine thread isQueued) (frames : thread.frames = .left own :: outer)
    (absent : isQueued = false) :
    Fine { thread.setNewState .running with
      isControlled := true
      place := if own then .inside thread.inVex else thread.place
      frames := outer } isQueued := by
  subst absent
  have running : Fine { thread.setNewState .running with isControlled := true,frames := outer } false := by
    refine absent_fine ?_ (setNewState_declared .running) fine.entered fun member => fine.declaring ?_
    · change (thread.declared && false && !outer.any Frame.isLeft) = false
      rw [Bool.and_false,Bool.false_and]
    · rw [frames]
      exact List.mem_cons_of_mem _ member
  cases own with
  | false => exact running
  | true => exact inside_fine running rfl

private theorem handlerMove_fine {frame : Frame} {move : Move} (fine : Fine thread isQueued)
    (frames : thread.frames = frame :: outer) (fits : thread.Fits isQueued move)
    (moved : thread.handlerMove outer frame move = some (next,registryCall)) :
    Fine next (queuedAfter isQueued registryCall) := by
  have head : frame ∈ thread.frames := by
    rw [frames]
    exact List.mem_cons_self
  -- what the handler of a thread in VEX knows, and what the condition says of another one
  have apart : frame = .deciding ∨ frame = .suspended → (thread.inVex = false → isQueued = false) → isQueued = false := by
    rintro position outside
    cases inside : thread.inVex with
    | false => exact outside inside
    | true =>
      rcases position with rfl | rfl
      · exact fine.tested (.inr (.inl head)) inside
      · exact fine.tested (.inr (.inr head)) inside
  rw [PolledThread.handlerMove.eq_def] at moved
  split at moved
  case h_1 stillBlocked =>
    cases moved
    exact handle_fine fine frames stillBlocked
  case h_2 criteria =>
    cases moved
    exact test_fine fine frames criteria
  case h_3 =>
    cases moved
    exact declare_fine fine frames fits.2.1 fits.2.2
  case h_4 =>
    cases moved
    exact return_fine fine frames rfl
  case h_5 =>
    cases moved
    have absent := apart (.inl rfl) fits
    exact replace_fine (setNewState_fine fine absent .suspended) frames rfl rfl nofun fun _ _ => absent
  case h_6 inSystemCall =>
    cases moved
    have absent := apart (.inr rfl) fits
    exact return_fine (controlled_fine (setNewState_fine fine absent _) absent) frames rfl
  case h_7 own =>
    cases moved
    exact leave_fine fine frames
  case h_8 =>
    cases moved
    exact setNewState_fine fine (not_queued_of_left fine (List.any_eq_true.mpr ⟨_,head,rfl⟩)) .suspended
  case h_9 own =>
    cases moved
    have absent := not_queued_of_left fine (List.any_eq_true.mpr ⟨_,head,rfl⟩)
    exact run_fine fine frames absent
  case h_10 => contradiction

/-! ## Own code -/

/-- The thread has come into VEX or goes out of it, without any call that interrupts it. -/
private theorem cross_fine (fine : Fine thread isQueued) (frames : thread.frames = []) {inVex : Bool} {place : Place}
    (entered : place = .entering ∨ place = .inside true → inVex = true) (unchecked : place ≠ .inside true)
    (ended : place = .ended → isQueued = false) : Fine { thread with inVex,place } isQueued where
  exactly := fine.exactly
  waiting := fine.waiting
  released := fine.released
  entered := entered
  checked := fun inside => absurd inside unchecked
  ended := ended
  declaring := by
    change .declaring ∈ thread.frames → _
    simp [frames]
  tested := by
    change .testing ∈ thread.frames ∨ .deciding ∈ thread.frames ∨ .suspended ∈ thread.frames → _
    simp [frames]

/-- A check that fails. -/
private theorem call_fine (fine : Fine thread isQueued) (frames : thread.frames = []) :
    Fine { thread with frames := [.leaving true] } isQueued := by
  refine frames_fine fine ?_ (by simp) (by simp)
  rw [PolledThread.hasLeft,PolledThread.hasLeft,frames]
  rfl

private theorem end_fine (frames : thread.frames = []) :
    Fine { thread.setNewState .vexZombie with place := .ended } false := by
  refine absent_fine ?_ (setNewState_declared .vexZombie) (by simp) ?_
  · change (thread.declared && false && !thread.hasLeft) = false
    rw [Bool.and_false,Bool.false_and]
  · change .declaring ∈ thread.frames → _
    simp [frames]

private theorem ownMove_fine {place : Place} {move : Move} (fine : Fine thread isQueued) (frames : thread.frames = [])
    (placed : thread.place = place) (fits : thread.Fits isQueued move)
    (moved : thread.ownMove place move = some (next,registryCall)) : Fine next (queuedAfter isQueued registryCall) := by
  rw [PolledThread.ownMove.eq_def] at moved
  split at moved
  case h_1 =>
    cases moved
    exact place_fine fine nofun nofun nofun
  case h_2 | h_3 =>
    cases moved
    exact cross_fine fine frames (fun _ => rfl) nofun nofun
  case h_4 setsInVex =>
    cases moved
    exact cross_fine fine frames nofun nofun nofun
  case h_5 =>
    by_cases runs : (thread.isRunning && thread.isControlled) = true
    · rw [if_pos runs] at moved
      cases moved
      have absent : isQueued = false := by
        refine not_queued_of_state fine fun waiting => ?_
        rw [Bool.and_eq_true,PolledThread.isRunning,waiting] at runs
        exact absurd runs.1 (by decide)
      have entered := fine.entered (.inl placed)
      exact place_fine fine (fun _ => entered) (fun _ => absent) nofun
    · rw [if_neg runs] at moved
      cases moved
      exact call_fine fine frames
  case h_6 =>
    by_cases controlled : thread.isControlled = true
    · rw [if_pos controlled] at moved
      cases moved
      have absent : isQueued = false := by
        refine Bool.eq_false_iff.mpr fun queued => ?_
        rw [fine.released queued] at controlled
        contradiction
      exact inside_fine fine absent
    · rw [if_neg controlled] at moved
      cases moved
      exact call_fine fine frames
  case h_7 =>
    by_cases inIo : thread.inIo = true
    · rw [if_pos inIo] at moved
      cases moved
      have absent : isQueued = false := by
        refine not_queued_of_state fine fun waiting => ?_
        rw [PolledThread.inIo,waiting] at inIo
        exact absurd inIo (by decide)
      exact inside_fine fine absent
    · rw [if_neg inIo] at moved
      contradiction
  case h_8 checked code =>
    by_cases waits : code = .nativeWaiting
    · rw [if_pos waits] at moved
      contradiction
    · rw [if_neg waits] at moved
      cases moved
      cases checked with
      | false => exact setNewState_fine fine (fits placed) code
      | true => exact setNewState_fine fine (fine.checked placed) code
  case h_9 =>
    cases moved
    exact cross_fine fine frames nofun nofun nofun
  case h_10 =>
    cases moved
    exact end_fine frames
  case h_11 =>
    cases moved
    have kept : Fine { thread with inVex := false,place := .ended } isQueued :=
      cross_fine fine frames nofun nofun fun _ => fine.ended placed
    rwa [← placed] at kept
  case h_12 => contradiction

/-- The scheduler's own native wait, which no declared one ends by. -/
private theorem timeOut_fine (fine : Fine thread isQueued) : Fine thread.setNativeWaiting isQueued where
  exactly := by
    rw [fine.exactly]
    change (thread.declared && !thread.hasLeft) = (thread.declared && true && !thread.hasLeft)
    rw [Bool.and_true]
  waiting := fun _ => rfl
  released := fun _ => rfl
  entered := fine.entered
  checked := fine.checked
  ended := fine.ended
  declaring := fine.declaring
  tested := fine.tested

theorem move_fine {move : Move} (fine : Fine thread isQueued) (fits : thread.Fits isQueued move)
    (moved : thread.move move = some (next,registryCall)) : Fine next (queuedAfter isQueued registryCall) := by
  rw [PolledThread.move.eq_def] at moved
  split at moved
  case h_1 =>
    cases moved
    exact unpolled_fine fine true thread.currentlyPolled
  case h_2 =>
    cases moved
    exact timeOut_fine fine
  case h_3 =>
    cases moved
    exact controlled_fine fine fits
  case h_4 code =>
    by_cases waits : code = .nativeWaiting
    · rw [if_pos waits] at moved
      contradiction
    · rw [if_neg waits] at moved
      cases moved
      exact setNewState_fine fine fits code
  case h_5 =>
    by_cases delivered : thread.signalled ∧ thread.place ≠ .unregistered
    · rw [if_pos delivered] at moved
      cases moved
      have interrupted : Fine { thread with frames := .handling :: thread.frames } isQueued :=
        frames_fine fine rfl (fun member => fine.declaring (by simpa using member))
          fun member => fine.tested (by simpa using member)
      exact unpolled_fine interrupted false thread.currentlyPolled
    · rw [if_neg delivered] at moved
      contradiction
  case h_6 =>
    split at moved
    case h_1 frames => exact ownMove_fine fine frames rfl fits moved
    case h_2 frame outer frames => exact handlerMove_fine fine frames fits moved

end Moves

/-! ## The queue -/

section Calls
variable {algorithms : HeapAlgorithms Thread Int} {queue : Queue Thread} {thread other : Thread}
  {registry next : NwPollingThreadRegistry Thread}

/-- The queue behind a call, the thread's own membership and that of all others. -/
private structure Called (queue : Queue Thread) (thread : Thread) (registryCall : RegistryCall) (called : Queue Thread) :
    Prop where
  once : called.threads.Nodup
  heap : IsHeap queue.estimatedRealTime called.threads
  own : thread ∈ called.threads ↔ registryCall = .setNativeWaiting
  others : ∀ other, other ≠ thread → (other ∈ called.threads ↔ other ∈ queue.threads)

private theorem push_called (once : queue.threads.Nodup) (absent : thread ∉ queue.threads) (valid : queue.Valid) :
    Called queue thread .setNativeWaiting (call algorithms queue thread .setNativeWaiting) := by
  have perm := algorithms.pushHeap_perm thread (Queue.valid_iff.mp valid)
  refine ⟨?_,algorithms.pushHeap_isHeap thread (Queue.valid_iff.mp valid),?_,?_⟩
  · exact perm.nodup_iff.mpr (List.nodup_cons.mpr ⟨absent,once⟩)
  · exact iff_of_true (perm.mem_iff.mpr List.mem_cons_self) rfl
  · intro other different
    rw [call,Queue.push,perm.mem_iff,List.mem_cons,or_iff_right different]

/-- One removal is enough where no thread is queued twice. -/
private theorem erase_called (once : queue.threads.Nodup) :
    Called queue thread .unsetNativeWaiting (call algorithms queue thread .unsetNativeWaiting) := by
  have perm := algorithms.makeHeap_perm queue.estimatedRealTime (queue.threads.erase thread)
  refine ⟨perm.nodup_iff.mpr (once.erase thread),algorithms.makeHeap_isHeap _ _,?_,?_⟩
  · rw [call,Queue.erase,Queue.update,perm.mem_iff]
    exact iff_of_false once.not_mem_erase (by decide)
  · intro other different
    rw [call,Queue.erase,Queue.update,perm.mem_iff,List.mem_erase_of_ne different]

private theorem remove_called (once : queue.threads.Nodup) :
    Called queue thread .remove (call algorithms queue thread .remove) := by
  have perm := algorithms.makeHeap_perm queue.estimatedRealTime (AdaptiblePQueues.eraseFrom thread 0 queue.threads)
  rw [AdaptiblePQueues.eraseFrom_eq,List.take_zero,List.drop_zero,List.nil_append] at perm
  have erased : call algorithms queue thread .remove =
      Queue.update algorithms { queue with threads := queue.threads.filter (· ≠ thread) } := by
    rw [call,AdaptiblePQueues.eraseAll,AdaptiblePQueues.eraseFrom_eq,List.take_zero,List.drop_zero,List.nil_append]
  rw [erased]
  refine ⟨perm.nodup_iff.mpr (once.filter _),algorithms.makeHeap_isHeap _ _,?_,?_⟩
  · rw [Queue.update,perm.mem_iff]
    exact iff_of_false (by simp) (by decide)
  · intro other different
    rw [Queue.update,perm.mem_iff,List.mem_filter]
    exact and_iff_left (decide_eq_true different)

/-- What holds of the registry in each state. -/
structure Inv (registry : NwPollingThreadRegistry Thread) : Prop where
  once : registry.nativeWaitingThreadsPQueue.threads.Nodup
  heap : IsHeap registry.orderedBy registry.nativeWaitingThreadsPQueue.threads
  fine : ∀ thread, Fine (registry.threads thread) (registry.isQueued thread)

private theorem valid_of_ordered (inv : Inv registry) (ordered : Ordered registry) :
    registry.nativeWaitingThreadsPQueue.Valid :=
  Queue.valid_iff.mpr ((isHeap_congr ordered).mpr inv.heap)

private theorem Inv.membership (inv : Inv registry) : Membership registry :=
  ⟨inv.once,fun thread => (inv.fine thread).exactly,fun thread => (inv.fine thread).ended⟩

/-- Only declaring handlers push. -/
private theorem move_of_push {moved before : PolledThread} {move : Move}
    (stepped : before.move move = some (moved,some .setNativeWaiting)) : move = .setNativeWaiting := by
  rw [PolledThread.move.eq_def] at stepped
  split at stepped
  case h_6 =>
    split at stepped
    case h_1 =>
      rw [PolledThread.ownMove.eq_def] at stepped
      split at stepped <;> grind
    case h_2 =>
      rw [PolledThread.handlerMove.eq_def] at stepped
      split at stepped <;> grind
  all_goals grind

private theorem update_fine (inv : Inv registry) {moved : PolledThread} {queue : Queue Thread}
    (own : Fine moved (decide (thread ∈ queue.threads)))
    (others : ∀ other, other ≠ thread →
      (other ∈ queue.threads ↔ other ∈ registry.nativeWaitingThreadsPQueue.threads)) (other : Thread) :
    Fine (Function.update registry.threads thread moved other) (decide (other ∈ queue.threads)) := by
  by_cases same : other = thread
  · subst same
    rwa [Function.update_self]
  · rw [Function.update_of_ne same,decide_eq_decide.mpr (others other same)]
    exact inv.fine other

private theorem after_inv (inv : Inv registry) {moved : PolledThread} {registryCall : Option RegistryCall}
    (fine : Fine moved (queuedAfter (registry.isQueued thread) registryCall))
    (pushes : registryCall = some .setNativeWaiting →
      thread ∉ registry.nativeWaitingThreadsPQueue.threads ∧ Ordered registry) :
    Inv (registry.after algorithms thread moved registryCall) := by
  cases registryCall with
  | none => exact ⟨inv.once,inv.heap,update_fine inv fine fun _ _ => Iff.rfl⟩
  | some registryCall =>
    have called : Called registry.nativeWaitingThreadsPQueue thread registryCall
        (call algorithms registry.nativeWaitingThreadsPQueue thread registryCall) := by
      cases registryCall with
      | setNativeWaiting =>
        obtain ⟨absent,ordered⟩ := pushes rfl
        exact push_called inv.once absent (valid_of_ordered inv ordered)
      | unsetNativeWaiting => exact erase_called inv.once
      | remove => exact remove_called inv.once
    have own : queuedAfter (registry.isQueued thread) (some registryCall) =
        decide (thread ∈ (call algorithms registry.nativeWaitingThreadsPQueue thread registryCall).threads) := by
      rw [decide_eq_decide.mpr called.own]
      cases registryCall <;> rfl
    exact ⟨called.once,called.heap,update_fine inv (own ▸ fine) called.others⟩

private theorem step_inv {event : Event Thread} (inv : Inv registry) (fits : Fits registry event)
    (stepped : registry.step algorithms event = some next) : Inv next := by
  cases event with
  | pollNativeWaitingThreads =>
    cases stepped
    rw [pollNativeWaitingThreads]
    split
    · exact inv
    · exact after_inv inv (poll_fine (inv.fine _)) nofun
  | change thread change =>
    cases stepped
    exact ⟨inv.once,inv.heap,inv.fine⟩
  | move thread move =>
    obtain ⟨⟨moved,registryCall⟩,executed,rfl⟩ := Option.map_eq_some_iff.mp stepped
    refine after_inv inv (move_fine (inv.fine thread) fits.1 executed) ?_
    rintro rfl
    cases move_of_push executed
    exact ⟨of_decide_eq_false fits.1.1,fits.2 rfl⟩

private theorem initial_inv (estimatedRealTime : Thread → Int) : Inv (initial estimatedRealTime) where
  once := List.nodup_nil
  heap := isHeap_nil
  fine _ := ⟨rfl,nofun,nofun,nofun,nofun,nofun,nofun,nofun⟩

end Calls

/-! ## Runs -/

/-- In every state, no thread is queued twice, the queued ones are those whose declared native waits last, none of them
    has ended, and whatever is polled is a heap. -/
theorem registry_membership (algorithms : HeapAlgorithms Thread Int) (estimatedRealTime : Thread → Int)
    (events : List (Event Thread)) (registry : NwPollingThreadRegistry Thread)
    (meets : Meets (step algorithms) Fits (initial estimatedRealTime) events)
    (executed : run (step algorithms) (initial estimatedRealTime) events = some registry) :
    Meets (step algorithms) (fun before event => before.Membership ∧ before.PollsHeap event)
      (initial estimatedRealTime) events ∧ registry.Membership := by
  have preserved : ∀ before event next, Inv before → Fits before event →
      before.step algorithms event = some next → Inv next := fun _ _ _ => step_inv
  constructor
  · refine meets_of_invariant preserved ?_ (initial_inv estimatedRealTime) meets
    intro before event inv fits
    refine ⟨inv.membership,?_⟩
    cases event with
    | pollNativeWaitingThreads => exact valid_of_ordered inv fits
    | change thread change => trivial
    | move thread move => trivial
  · exact (invariant_of_meets preserved (initial_inv estimatedRealTime) meets executed).membership

/-- A thread is spawned, runs outside VEX and is declared native waiting. -/
def declare (thread : Bool) : List (Event Bool) :=
  [.onThreadSpawn,.setThreadCurrentlyControllingManager,.setNewState .running,.onVexExit,.signal,.deliver,
    .onSignalledFromScheduler false,.isThreadBlockedInNativeWait true,.setNativeWaiting].map (.move thread)

/-- One thread is found no longer blocked, the other one comes into VEX and ends. -/
def leave : List (Event Bool) :=
  .pollNativeWaitingThreads ::
    [.deliver,.onSignalledFromScheduler false,.unsetNativeWaiting,.setRunningThread].map (.move false) ++
    [.onVexEntry,.ensureThreadIsNotInNativeWaitingState,.unsetNativeWaiting,.setSuspendedAndPushToRunnables,
      .setThreadCurrentlyControllingManager,.setRunningThread,.onThreadEnd].map (.move true)

theorem registry_membership_of_two :
    Meets (step .ascending) (fun before event => before.Membership ∧ before.PollsHeap event)
      (initial fun thread => if thread then 20 else 10) (declare false ++ declare true ++ leave) := by
  have executed : (run (step .ascending) (initial fun thread => if thread then 20 else 10)
      (declare false ++ declare true ++ leave)).isSome := by decide
  obtain ⟨last,executed⟩ := Option.isSome_iff_exists.mp executed
  exact (registry_membership .ascending _ _ last (by decide) executed).1

/-- A thread that runs again behind its native wait asks for the time. -/
def getTime : List (Event Bool) :=
  [.move false (.enterUnchecked false),.change false (.add 15),.move false .onVexExit]

/-- The next poll does not find the thread with the least run time on top. -/
theorem getTime_of_native_waiting : ∃ registry,
    run (step .ascending) (initial fun thread => if thread then 20 else 10)
      (declare false ++ declare true ++ getTime) = some registry ∧ ¬ registry.PollsHeap .pollNativeWaitingThreads := by
  have checked : (run (step .ascending) (initial fun thread => if thread then 20 else 10)
      (declare false ++ declare true ++ getTime)).any (fun registry =>
        decide (registry.nativeWaitingThreadsPQueue.threads = [false,true] ∧
          registry.nativeWaitingThreadsPQueue.estimatedRealTime true <
            registry.nativeWaitingThreadsPQueue.estimatedRealTime false)) = true := by decide
  obtain ⟨registry,executed,found⟩ := exists_of_checked checked
  obtain ⟨threads,earlier⟩ := of_decide_eq_true found
  refine ⟨registry,executed,fun valid => ?_⟩
  have least := valid.2 false (by rw [threads]; rfl) true (by rw [threads]; decide)
  exact absurd least (not_le.mpr earlier)

end Vexjine.NativeWaits
