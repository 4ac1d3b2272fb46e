import Vexjine.Signals

/-!
# The isolation of wait objects

The callers name objects by 64-bit identifiers; the object registry keeps them
by `int`, and a thread remembers only a positive one for its removal. Objects
are isolated from each other exactly if their identifiers are positive and stay
distinct as `int`.
-/

namespace Vexjine.WaitObjects
open Vexjine.Runs Vexjine.Vex Vexjine.Signals
set_option linter.unusedSimpArgs false

variable {Locks : Type} (locking : LockOperations Locks)

/-- The object a step names, if any, is one of the given ones. -/
def OnlyOn (ids : Set Int64) : Event → Prop
  | .register _ objectId _ | .signal _ objectId | .broadcast _ objectId => objectId ∈ ids
  | _ => True

def broadcastObject : Event → Option Int64
  | .broadcast _ objectId => some objectId
  | _ => none

/-- The thread has announced a wait on the object. -/
def RegisteredOn (past : List Event) (t objectId : Int64) : Prop :=
  ∃ updateLockRegistry, .register t objectId updateLockRegistry ∈ past

/-- The position of a thread in a wait on the object. -/
def waitsOn (thread : Thread) (objectId : Int64) : Prop :=
  ∃ updateLockRegistry, thread.position = .replacedWaiting objectId updateLockRegistry ∨
    thread.position = .replacedTimedWaiting objectId updateLockRegistry

/-- The step ends the thread's wait on the object. -/
structure StopsWaitingOn (vex next : Vex Locks) (t objectId : Int64) (thread : Thread) : Prop where
  registered : vex.threadRegistry t = some thread
  waiting : thread.state.isWaiting = true
  waitsOn : waitsOn thread objectId
  stopped : isWaiting next t = false

/-- A signal or a broadcast reaches only threads that registered on its object, and a thread that
    stops waiting on an object loses a record of that object and of no other. -/
structure IsolatedStep (ids : Set Int64) (past : List Event) (vex : Vex Locks) (event : Event) (next : Vex Locks) :
    Prop where
  signalled : ∀ manager objectId, event = .signal manager objectId →
    vex.waitingOnObjectRegistry.findNext objectId.toInt32 ≠ 0 →
      RegisteredOn past (vex.waitingOnObjectRegistry.findNext objectId.toInt32) objectId
  broadcast : ∀ manager objectId, event = .broadcast manager objectId →
    ∀ t ∈ records vex objectId.toInt32, RegisteredOn past t objectId
  woken : ∀ manager objectId, event = .signal manager objectId ∨ event = .broadcast manager objectId →
    ∀ t, isWaiting vex t = true → isWaiting next t = false → RegisteredOn past t objectId
  removed : ∀ t objectId thread, StopsWaitingOn vex next t objectId thread →
    if broadcastObject event = some objectId then t ∉ records next objectId.toInt32
    else (records next objectId.toInt32).count t = (records vex objectId.toInt32).count t - 1
  elsewhere : ∀ t objectId thread, StopsWaitingOn vex next t objectId thread → ∀ other ∈ ids, other ≠ objectId →
    broadcastObject event ≠ some other →
      (records next other.toInt32).count t = (records vex other.toInt32).count t

/-- Every step of every run that uses only the given objects is isolated. -/
def Isolates (locks : Locks) (ids : Set Int64) : Prop :=
  ∀ past vex event next, (∀ earlier ∈ past, OnlyOn ids earlier) → OnlyOn ids event →
    run (Vex.step locking) (Vex.start locks) past = some vex → vex.step locking event = some next →
      IsolatedStep ids past vex event next

/-! ## What a waiting thread remembers -/

/-- A wait is on one of the objects, which its thread remembers and sleeps on. -/
private structure Remembers (ids : Set Int64) (thread : Thread) : Prop where
  announced : ∀ objectId updateLockRegistry, thread.position = .registered objectId updateLockRegistry → objectId ∈ ids
  remembered : ∀ objectId, waitsOn thread objectId → objectId ∈ ids ∧ thread.blocked = true ∧
    thread.state.timedWaitingObjectId = objectId ∧ (thread.state.isWaiting = true → thread.state.awaken = false)

private def Remembering (ids : Set Int64) (b : Int64) (vex : Vex Locks) : Prop :=
  ∀ thread, vex.threadRegistry b = some thread → Remembers ids thread

private theorem interrupt_remembers {ids : Set Int64} {thread : Thread} (remembers : Remembers ids thread) :
    Remembers ids { thread with state := thread.state.beforeThreadInterrupt } := by
  rw [VexThreadState.beforeThreadInterrupt_eq]
  refine ⟨remembers.announced,fun objectId waits => ?_⟩
  obtain ⟨member,blocked,remembered,-⟩ := remembers.remembered objectId waits
  exact ⟨member,blocked,remembered,fun _ => rfl⟩

private theorem remembering_robust (ids : Set Int64) (b : Int64) : Robust b fun vex : Vex Locks => Remembering ids b vex where
  kept := fun keeps holds thread found => holds thread (keeps.thread ▸ found)
  interrupted := by
    intro vex holds thread found
    cases before : vex.threadRegistry b with
    | none => exact holds thread (by rwa [interrupt_absent before] at found)
    | some old =>
      rw [interrupt_thread before] at found
      cases found
      exact interrupt_remembers (holds old before)
  flagged := by
    intro vex timedOut holds thread found
    cases before : vex.threadRegistry b with
    | none => simp [onState,onThread,before] at found
    | some old =>
      rw [onState_self _ before] at found
      cases found
      exact ⟨(holds old before).announced,(holds old before).remembered⟩

/-- The positions outside the waits on an object. -/
private def idle : Position → Bool
  | .registered _ _ | .replacedWaiting _ _ | .replacedTimedWaiting _ _ => false
  | _ => true

private theorem remembers_of_idle {ids : Set Int64} {thread : Thread} (isIdle : idle thread.position = true) :
    Remembers ids thread := by
  constructor
  · intro objectId updateLockRegistry announced
    simp [announced,idle] at isIdle
  · rintro objectId ⟨updateLockRegistry,waits | waits⟩ <;> simp [waits,idle] at isIdle

/-- A thread that is not blocked waits on nothing; then only its position matters. -/
private theorem remembers_of_unblocked {ids : Set Int64} {thread after : Thread} (remembers : Remembers ids thread)
    (unblocked : thread.blocked = false) (same : after.position = thread.position) : Remembers ids after := by
  refine ⟨fun objectId updateLockRegistry announced => remembers.announced objectId updateLockRegistry (same ▸ announced),?_⟩
  intro objectId waits
  unfold waitsOn at waits
  rw [same] at waits
  have blocked := (remembers.remembered objectId waits).2.1
  rw [unblocked] at blocked
  cases blocked

section Own
variable {locking} {vex : Vex Locks} {ids : Set Int64} {b : Int64} {thread : Thread}

private theorem requestLock_idle (lockId : Int64)
    (found : (vex.onLocklessRequestingLock locking b lockId).threadRegistry b = some thread) :
    idle thread.position = true := by
  obtain outside | requesting := requestLock_position lockId found
  · rw [outside]
    rfl
  · rw [requesting]
    rfl

private theorem onVexExit_idle (found : (vex.onVexExit b).threadRegistry b = some thread) : idle thread.position = true := by
  rw [onVexExit_position found]
  rfl

private theorem setWaitingObjectId_remembered (state : VexThreadState) (objectId : Int64) :
    (state.setWaitingObjectId objectId).timedWaitingObjectId =
      if 0 < objectId then objectId else state.timedWaitingObjectId := by
  unfold VexThreadState.setWaitingObjectId
  split_ifs <;> rfl

/-- A thread that starts a wait sleeps in it and remembers a positive identifier. -/
private theorem waitStart_self (objectId : Int64) (updateLockRegistry : Bool) (found : vex.threadRegistry b = some thread) :
    ∃ state, (vex.onReplacedWaitingStart b objectId updateLockRegistry).threadRegistry b =
        some { thread with state,blocked := true,position := .replacedWaiting objectId updateLockRegistry } ∧
      state.awaken = false ∧
      state.timedWaitingObjectId = if 0 < objectId then objectId else thread.state.timedWaitingObjectId := by
  have remembered := setWaitingObjectId_remembered (thread.state.onVexEntry.setTimedOut true) objectId
  have entered := onState_self (fun state =>
    ((state.onVexEntry.setTimedOut true).setWaitingObjectId objectId).setWaiting) found
  cases updateLockRegistry with
  | false =>
    refine ⟨((thread.state.onVexEntry.setTimedOut true).setWaitingObjectId objectId).setWaiting.blockHereUntilSignaled,
      ?_,rfl,remembered⟩
    exact onReplacedWaiting_self (setPosition_self _ entered)
  | true =>
    refine ⟨(((thread.state.onVexEntry.setTimedOut true).setWaitingObjectId objectId).setWaiting.setTimeout
      (-2)).blockHereUntilSignaled,?_,rfl,remembered⟩
    exact onReplacedWaiting_self (setPosition_self _ (onState_self (fun state => state.setTimeout (-2)) entered))

private theorem timedWaitStart_thread (objectId timeout : Int64) (position : Position)
    (found : vex.threadRegistry b = some thread) :
    (vex.onReplacedTimedWaitingStart b objectId timeout position).threadRegistry b = some { thread with
      state := ((thread.state.onVexEntry.setWaitingObjectId objectId).setTimedWaiting timeout).setWaiting.blockHereUntilSignaled
      blocked := true
      position } :=
  onReplacedTimedWaiting_self (setPosition_self _ (onState_self _ found))

private theorem timedWaitStart_self (objectId timeout : Int64) (position : Position)
    (found : vex.threadRegistry b = some thread) :
    ∃ state, (vex.onReplacedTimedWaitingStart b objectId timeout position).threadRegistry b =
        some { thread with state,blocked := true,position } ∧
      state.awaken = false ∧
      state.timedWaitingObjectId = if 0 < objectId then objectId else thread.state.timedWaitingObjectId := by
  have remembered := setWaitingObjectId_remembered thread.state.onVexEntry objectId
  exact ⟨_,timedWaitStart_thread objectId timeout position found,rfl,remembered⟩

/-- An unpark of a thread that waits leaves it waiting, and wakes nobody. -/
private theorem unpark_self (found : vex.threadRegistry b = some thread) :
    ∃ state, (vex.onUnpark b thread).threadRegistry b = some { thread with state } ∧
      state.timedWaitingObjectId = thread.state.timedWaitingObjectId ∧
      (thread.state.isWaiting = true → state.isWaiting = true) ∧
      (state.isWaiting = true → state.awaken = true → thread.state.isWaiting = true ∧ thread.state.awaken = true) := by
  by_cases parked : thread.state.parked = true
  · have flags := onState_self (fun _ => thread.state.getAndSetParkedState.2) found
    have cleared : thread.state.getAndSetParkedState.2 =
        { thread.state with alreadyUnparked := false,parked := false } := by
      simp [VexThreadState.getAndSetParkedState,parked]
    unfold onUnpark
    dsimp only
    rw [if_pos (by rw [VexThreadState.getAndSetParkedState_fst,parked])]
    generalize thread.state.getAndSetParkedState.2 = flagged at flags cleared
    split_ifs
    · refine ⟨flagged.setTimedOut false,onState_self _ flags,?_⟩
      rw [cleared]
      exact ⟨rfl,id,fun waiting awake => ⟨waiting,awake⟩⟩
    · have woken := onWrappedWaitingInterrupt_self flags
      refine ⟨_,woken,?_⟩
      rw [cleared,VexThreadState.beforeThreadInterrupt_eq]
      exact ⟨rfl,fun _ => rfl,fun _ awake => by cases awake⟩
  · rw [onUnpark_of_notParked b vex (by simpa using parked)]
    exact ⟨_,onState_self _ found,rfl,id,fun waiting awake => ⟨waiting,awake⟩⟩

/-- A thread that is suspended in a wait sleeps in it as before. -/
private theorem remembers_of_blocked {after : Thread} (remembers : Remembers ids thread)
    (position : after.position = thread.position)
    (remembered : after.state.timedWaitingObjectId = thread.state.timedWaitingObjectId)
    (blocked : after.blocked = true) (asleep : after.state.isWaiting = true → after.state.awaken = false) :
    Remembers ids after := by
  refine ⟨fun objectId updateLockRegistry announced =>
    remembers.announced objectId updateLockRegistry (position ▸ announced),fun objectId waits => ?_⟩
  unfold waitsOn at waits
  rw [position] at waits
  obtain ⟨member,-,same,-⟩ := remembers.remembered objectId waits
  exact ⟨member,blocked,remembered.trans same,asleep⟩

private theorem returnFromBlock_remembers (remembers : Remembers ids thread) (found : vex.threadRegistry b = some thread) :
    Remembering ids b (vex.returnFromBlock locking b thread) := by
  intro after registered
  unfold returnFromBlock at registered
  dsimp only at registered
  obtain ⟨running,-⟩ | ⟨-,again,-⟩ | ⟨back,-⟩ := setRunningThread_cases found
  · rw [if_neg (by simp [isBlocked,running])] at registered
    cases position : thread.position with
    | outside =>
      simp only [position] at registered
      exact remembers_of_idle (onVexExit_idle registered)
    | registered objectId updateLockRegistry =>
      simp only [position,running] at registered
      cases registered
      refine ⟨fun other updates announced => remembers.announced other updates (position.trans announced),?_⟩
      rintro other ⟨updates,waits | waits⟩ <;> cases waits
    | replacedWaiting objectId updateLockRegistry =>
      simp only [position,onReplacedWaitingEnd] at registered
      split_ifs at registered
      · exact remembers_of_idle (requestLock_idle objectId registered)
      · exact remembers_of_idle (onVexExit_idle registered)
    | replacedTimedWaiting objectId updateLockRegistry =>
      simp only [position,onReplacedTimedWaitingEnd] at registered
      split_ifs at registered
      · exact remembers_of_idle (requestLock_idle objectId registered)
      · exact remembers_of_idle (onVexExit_idle registered)
    | sleeping =>
      simp only [position] at registered
      exact remembers_of_idle (onVexExit_idle registered)
    | requestingLock lockId =>
      simp only [position] at registered
      exact remembers_of_idle (onVexExit_idle registered)
    | parking =>
      simp only [position,running] at registered
      cases registered
      exact remembers_of_idle (by simp [position,idle])
  · rw [if_pos (by simp [isBlocked,again]),again] at registered
    cases registered
    exact remembers_of_blocked remembers rfl rfl rfl fun _ => rfl
  · rw [if_pos (by simp [isBlocked,back,pushed]),back] at registered
    cases registered
    exact remembers_of_blocked remembers rfl rfl rfl fun _ => rfl

private theorem free_unblocked (free : thread.isFree = true) : thread.blocked = false := by
  rw [Thread.isFree,Bool.and_eq_true,Bool.not_eq_true'] at free
  exact free.1

private theorem outside_free (outside : thread.isOutside = true) : thread.isFree = true := by
  rw [Thread.isOutside,Bool.and_eq_true] at outside
  exact outside.1

/-- A wait that has just started remembers its object. -/
private theorem remembers_of_started {objectId : Int64} {updateLockRegistry : Bool} {after : Thread} (member : objectId ∈ ids)
    (position : after.position = .replacedWaiting objectId updateLockRegistry ∨
      after.position = .replacedTimedWaiting objectId updateLockRegistry)
    (blocked : after.blocked = true) (remembered : after.state.timedWaitingObjectId = objectId)
    (asleep : after.state.awaken = false) : Remembers ids after := by
  constructor
  · intro other updates announced
    rcases position with waits | waits <;> cases waits.symm.trans announced
  · rintro other ⟨updates,waits | waits⟩
    · rcases position with here | here <;> cases here.symm.trans waits
      exact ⟨member,blocked,remembered,fun _ => asleep⟩
    · rcases position with here | here <;> cases here.symm.trans waits
      exact ⟨member,blocked,remembered,fun _ => asleep⟩

private theorem unpark_remembering (holds : Remembering ids b vex) (found : vex.threadRegistry b = some thread) :
    Remembering ids b (vex.onUnpark b thread) := by
  obtain ⟨state,unparked,remembered,-,asleep⟩ := unpark_self found
  intro after registered
  rw [unparked] at registered
  cases registered
  refine ⟨(holds thread found).announced,fun objectId waits => ?_⟩
  obtain ⟨member,blocked,same,sleeps⟩ := (holds thread found).remembered objectId waits
  refine ⟨member,blocked,remembered.trans same,fun waiting => ?_⟩
  by_contra awake
  obtain ⟨before,awaken⟩ := asleep waiting (by simpa using awake)
  rw [sleeps before] at awaken
  cases awaken

/-- The steps of the thread itself, and those that name it. -/
private theorem remembering_own {next : Vex Locks} {event : Event} (positive : ∀ objectId ∈ ids, 0 < objectId)
    (only : OnlyOn ids event) (holds : Remembering ids b vex) (own : event.thread = some b)
    (stepped : vex.step locking event = some next) : Remembering ids b next := by
  cases event with
  | spawn t manager timedWaitingObjectId suspends =>
    cases own
    simp only [step,Option.ite_none_right_eq_some,Option.some.injEq] at stepped
    obtain ⟨-,rfl⟩ := stepped
    intro after registered
    have added : (vex.setThread b (some {
        state := .init timedWaitingObjectId
        threadCurrentlyControllingManager := manager
        blocked := false
        position := .outside })).threadRegistry b = some _ := Function.update_self ..
    obtain ⟨spawned,found,position⟩ := suspendCurrentThread_position suspends added
    rw [onThreadSpawn,found] at registered
    cases registered
    exact remembers_of_idle (by rw [position]; rfl)
  | ended t =>
    cases own
    obtain ⟨thread,-,rfl⟩ := Option.map_eq_some_iff.mp stepped
    intro after registered
    simp [onThreadEnd,setThread] at registered
  | suspend t =>
    cases own
    simp only [step,Option.ite_none_right_eq_some] at stepped
    obtain ⟨thread,acting,rfl⟩ := Option.map_eq_some_iff.mp stepped.2
    obtain ⟨found,free⟩ := actor_eq acting
    intro after registered
    rw [suspendThread_self found] at registered
    cases registered
    exact remembers_of_unblocked (holds thread found) (free_unblocked free) rfl
  | suspendLoose t =>
    cases own
    obtain ⟨thread,acting,rfl⟩ := Option.map_eq_some_iff.mp stepped
    obtain ⟨found,loose⟩ := actor_eq acting
    intro after registered
    obtain ⟨suspended,now,position⟩ := suspendLooseCurrentThread_position (onState_self VexThreadState.onVexEntry found)
    rw [now] at registered
    cases registered
    simp only [Bool.and_eq_true,Bool.not_eq_true'] at loose
    exact remembers_of_unblocked (holds thread found) loose.1.1 position
  | register t objectId updateLockRegistry =>
    cases own
    obtain ⟨thread,-,rfl⟩ := Option.map_eq_some_iff.mp stepped
    intro after registered
    have position := position_of_set (.registered objectId updateLockRegistry) registered
    refine ⟨fun other updates announced => ?_,?_⟩
    · rw [position] at announced
      cases announced
      exact only
    · rintro other ⟨updates,waits | waits⟩ <;> simp [position] at waits
  | wait t =>
    cases own
    obtain ⟨thread,acting,started⟩ := Option.bind_eq_some_iff.mp stepped
    obtain ⟨found,-⟩ := actor_eq acting
    cases position : thread.position with
    | registered objectId updateLockRegistry =>
      simp only [position,Option.some.injEq] at started
      subst started
      have member := (holds thread found).announced objectId updateLockRegistry position
      obtain ⟨state,waiting,asleep,remembered⟩ := waitStart_self objectId updateLockRegistry found
      rw [if_pos (positive objectId member)] at remembered
      intro after registered
      rw [waiting] at registered
      cases registered
      exact remembers_of_started member (.inl rfl) rfl remembered asleep
    | _ => simp [position] at started
  | timedWait t timeout nanoTimeout =>
    cases own
    obtain ⟨thread,acting,started⟩ := Option.bind_eq_some_iff.mp stepped
    obtain ⟨found,-⟩ := actor_eq acting
    cases position : thread.position with
    | registered objectId updateLockRegistry =>
      simp only [position,Option.some.injEq] at started
      subst started
      have member := (holds thread found).announced objectId updateLockRegistry position
      obtain ⟨state,waiting,asleep,remembered⟩ := timedWaitStart_self objectId
        (ensureTimeoutIsLessThanMax timeout nanoTimeout) (.replacedTimedWaiting objectId updateLockRegistry) found
      rw [if_pos (positive objectId member)] at remembered
      intro after registered
      rw [waiting] at registered
      cases registered
      exact remembers_of_started member (.inr rfl) rfl remembered asleep
    | _ => simp [position] at started
  | sleep t timeout nanoTimeout =>
    cases own
    obtain ⟨thread,acting,rfl⟩ := Option.map_eq_some_iff.mp stepped
    obtain ⟨state,sleeping,-⟩ := timedWaitStart_self 0 (ensureTimeoutIsLessThanMax timeout nanoTimeout) .sleeping
      (actor_eq acting).1
    intro after registered
    rw [sleeping] at registered
    cases registered
    exact remembers_of_idle rfl
  | signal manager objectId => cases own
  | broadcast manager objectId => cases own
  | interrupt t =>
    cases own
    cases stepped
    exact (remembering_robust ids b).interruptThread b true holds
  | requestLock t lockId =>
    cases own
    obtain ⟨thread,-,rfl⟩ := Option.map_eq_some_iff.mp stepped
    exact fun after registered => remembers_of_idle (requestLock_idle lockId registered)
  | releaseLock t lockId =>
    cases own
    obtain ⟨thread,acting,rfl⟩ := Option.map_eq_some_iff.mp stepped
    obtain ⟨found,outside⟩ := actor_eq acting
    have marked : Remembering ids b ((vex.setLocks (locking.releaseAndGetNext vex.lockRegistry lockId).2).onState b
        fun state => state.setTimeout 0) := by
      have unlocked : (vex.setLocks (locking.releaseAndGetNext vex.lockRegistry lockId).2).threadRegistry b =
          some thread := found
      intro after registered
      rw [onState_self _ unlocked] at registered
      cases registered
      exact remembers_of_unblocked (holds thread found) (free_unblocked (outside_free outside)) rfl
    unfold onLocklessReleasingLock
    dsimp only
    split
    · exact (remembering_robust ids b).interrupt _ marked
    · exact holds
  | park t timeout =>
    cases own
    obtain ⟨thread,acting,rfl⟩ := Option.map_eq_some_iff.mp stepped
    intro after registered
    exact remembers_of_idle (by rw [onPark_position timeout (actor_eq acting).1 registered]; rfl)
  | parked t suspends =>
    cases own
    obtain ⟨thread,acting,rfl⟩ := Option.map_eq_some_iff.mp stepped
    intro after registered
    exact remembers_of_idle (by rw [onParked_position suspends (actor_eq acting).1 registered]; rfl)
  | unpark t =>
    cases own
    cases found : vex.threadRegistry b with
    | none =>
      simp only [step,found] at stepped
      cases stepped
      exact holds
    | some thread =>
      simp only [step,found] at stepped
      cases stepped
      exact unpark_remembering holds found
  | continueThread manager t leapIsValid =>
    cases own
    cases found : vex.threadRegistry b with
    | none => simp [step,continueThread,found] at stepped
    | some thread =>
      have remembers := holds thread found
      intro after registered
      obtain ⟨back,-⟩ | ⟨-,-,rfl⟩ | ⟨suspended,blocked,resumed⟩ | ⟨-,-,blocked,resumed⟩ :=
        continueThread_cases found stepped
      · rw [back] at registered
        cases registered
        exact remembers
      · exact holds after registered
      · rw [resumed] at registered
        cases registered
        refine remembers_of_blocked remembers rfl rfl blocked fun waiting => ?_
        rw [VexThreadState.isSuspended,decide_eq_true_eq] at suspended
        simp [VexThreadState.isWaiting,VexThreadState.onThreadResumeByManager,VexThreadState.setAwaken,suspended] at waiting
      · rw [resumed,VexThreadState.beforeThreadInterrupt_eq] at registered
        cases registered
        refine remembers_of_blocked remembers rfl rfl blocked fun waiting => ?_
        simp [VexThreadState.isWaiting,VexThreadState.onThreadResumeByManager,VexThreadState.setAwaken,
          VexThreadState.setTimedOut] at waiting
  | returnFromBlock t =>
    cases own
    obtain ⟨thread,acting,rfl⟩ := Option.map_eq_some_iff.mp stepped
    have found := (actor_eq acting).1
    exact returnFromBlock_remembers (holds thread found) found

private theorem remembering_step {next : Vex Locks} {event : Event} (positive : ∀ objectId ∈ ids, 0 < objectId)
    (only : OnlyOn ids event) (holds : Remembering ids b vex) (stepped : vex.step locking event = some next) :
    Remembering ids b next := by
  by_cases own : event.thread = some b
  · exact remembering_own positive only holds own stepped
  · exact (remembering_robust ids b).step holds own stepped

end Own

/-! ## The record of a thread that stops waiting -/

/-- Of all its records the thread loses one, under the object's key. -/
private def Loses (vex next : Vex Locks) (t objectId : Int64) : Prop :=
  ∀ key, (records next key).count t = (records vex key).count t - if key = objectId.toInt32 then 1 else 0

section Stopped
variable {locking} {vex next : Vex Locks} {ids : Set Int64} {t objectId : Int64} {thread : Thread}

private theorem interrupt_loses (found : vex.threadRegistry t = some thread)
    (remembered : thread.state.timedWaitingObjectId = objectId) (positive : 0 < objectId) :
    Loses vex (vex.onAnyReplacedWaitingInterrupt t) t objectId := by
  intro key
  have nonzero : objectId ≠ 0 := by grind
  rw [interrupt_count_self key found,remembered]
  simp [nonzero]

private theorem keeps_waiting (found : vex.threadRegistry t = some thread) (waiting : thread.state.isWaiting = true)
    (keeps : Keeps t vex next) : isWaiting next t = true := by
  rw [isWaiting_of_found (keeps.thread.trans found),waiting]

private theorem release_loses {a : Int64} (lockId : Int64) (found : vex.threadRegistry t = some thread)
    (waiting : thread.state.isWaiting = true) (remembered : thread.state.timedWaitingObjectId = objectId)
    (positive : 0 < objectId) (other : t ≠ a)
    (stopped : isWaiting (vex.onLocklessReleasingLock locking a lockId) t = false) :
    Loses vex (vex.onLocklessReleasingLock locking a lockId) t objectId := by
  have unlocked : Keeps t vex (vex.setLocks (locking.releaseAndGetNext vex.lockRegistry lockId).2) := setLocks_keeps _
  unfold onLocklessReleasingLock at stopped ⊢
  dsimp only at stopped ⊢
  split at stopped
  · rename_i blockedThread selected
    have marked := unlocked.trans (onState_keeps (fun state => state.setTimeout 0) other)
    by_cases same : t = blockedThread
    · subst same
      exact interrupt_loses (marked.thread.trans found) remembered positive
    · have kept := keeps_waiting found waiting (marked.trans (onAnyReplacedWaitingInterrupt_keeps same))
      rw [kept] at stopped
      cases stopped
  · rw [keeps_waiting found waiting unlocked] at stopped
    cases stopped

private theorem register_loses {a : Int64} (announced : Int64) (updateLockRegistry : Bool)
    (found : vex.threadRegistry t = some thread) (waiting : thread.state.isWaiting = true)
    (remembered : thread.state.timedWaitingObjectId = objectId) (positive : 0 < objectId) (other : t ≠ a)
    (stopped : isWaiting (vex.beforeReleasingLockOfAnyReplacedWaiting locking a announced updateLockRegistry) t = false) :
    Loses vex (vex.beforeReleasingLockOfAnyReplacedWaiting locking a announced updateLockRegistry) t objectId := by
  have inserted : Keeps t vex (vex.setRegistry (vex.waitingOnObjectRegistry.insert announced.toInt32 a)) :=
    setRegistry_keeps _
  have counts (key : Int32) :
      (records (vex.setRegistry (vex.waitingOnObjectRegistry.insert announced.toInt32 a)) key).count t =
        (records vex key).count t := by
    rw [records,setRegistry_records,ObjectRegistry.threadsWaiting_insert]
    split_ifs with same
    · simp [records,same,Ne.symm other]
    · rfl
  unfold beforeReleasingLockOfAnyReplacedWaiting at stopped ⊢
  dsimp only at stopped ⊢
  cases updateLockRegistry with
  | false =>
    rw [if_neg Bool.false_ne_true,keeps_waiting found waiting (inserted.trans (setPosition_keeps _ other))] at stopped
    cases stopped
  | true =>
    intro key
    have still : isWaiting ((vex.setRegistry (vex.waitingOnObjectRegistry.insert announced.toInt32 a)).onLocklessReleasingLock
        locking a announced) t = false := by
      unfold isWaiting at stopped ⊢
      rwa [if_pos rfl,(setPosition_keeps _ other).thread] at stopped
    rw [← counts key]
    exact release_loses announced (inserted.thread.trans found) waiting remembered positive other still key

/-- A time-out, the only way in which a manager ends a wait. -/
private theorem continue_loses {manager : Nat} {leapIsValid : Bool} (found : vex.threadRegistry t = some thread)
    (waiting : thread.state.isWaiting = true) (remembered : thread.state.timedWaitingObjectId = objectId)
    (positive : 0 < objectId) (continued : vex.continueThread t manager leapIsValid = some next)
    (stopped : isWaiting next t = false) : Loses vex next t objectId := by
  have notSuspended : thread.state.isSuspended = false := by
    rw [VexThreadState.isWaiting,decide_eq_true_eq] at waiting
    simp [VexThreadState.isSuspended,waiting]
  have unchanged (same : next.threadRegistry t = some thread) : Loses vex next t objectId := by
    rw [isWaiting_of_found same,waiting] at stopped
    cases stopped
  unfold continueThread at continued
  simp only [found,notSuspended,waiting] at continued
  split_ifs at continued with queued suspended timed
  · cases suspended
  · cases suspended
  · unfold interruptTimedWaitingThread at continued
    split_ifs at continued
    · intro key
      have popped : (vex.popRunnable t).threadRegistry t = some thread := found
      have loses := interrupt_loses popped remembered positive key
      rw [records,resumeThread_records continued]
      exact loses
    · cases continued
      exact unchanged found
  · cases continued
    exact unchanged found

/-- The thread loses its record in every step but a broadcast. -/
private theorem loses_of_stops {event : Event} (remembers : Remembers ids thread) (positive : 0 < objectId)
    (stops : StopsWaitingOn vex next t objectId thread) (stepped : vex.step locking event = some next)
    (notBroadcast : broadcastObject event = none) : Loses vex next t objectId := by
  obtain ⟨found,waiting,waitsOn,stopped⟩ := stops
  obtain ⟨-,blocked,remembered,asleep⟩ := remembers.remembered objectId waitsOn
  have unchanged (keeps : Keeps t vex next) : Loses vex next t objectId := by
    rw [keeps_waiting found waiting keeps] at stopped
    cases stopped
  by_cases own : event.thread = some t
  · have notFree : thread.isFree = false := by simp [Thread.isFree,blocked]
    have notOutside : thread.isOutside = false := by simp [Thread.isOutside,notFree]
    cases event with
    | signal manager signalled => cases own
    | broadcast manager signalled => cases own
    | interrupt t =>
      cases own
      cases stepped
      rw [interruptThread_waiting true (by rwa [isWaiting_of_found found])]
      exact interrupt_loses found remembered positive
    | unpark t =>
      cases own
      simp only [step,found] at stepped
      cases stepped
      obtain ⟨state,unparked,-,still,-⟩ := unpark_self found
      rw [isWaiting_of_found unparked,still waiting] at stopped
      cases stopped
    | continueThread manager t leapIsValid =>
      cases own
      exact continue_loses found waiting remembered positive stepped stopped
    | _ =>
      cases own
      simp [step,actor,Option.filter,found,notFree,notOutside,blocked,asleep waiting] at stepped
  · by_cases calm : event.interruptsOthers = false
    · exact unchanged (step_keeps stepped own calm)
    · cases event with
      | register a announced updateLockRegistry =>
        obtain ⟨-,-,rfl⟩ := Option.map_eq_some_iff.mp stepped
        exact register_loses announced updateLockRegistry found waiting remembered positive
          (fun same => own (congrArg some same.symm)) stopped
      | signal manager signalled =>
        cases stepped
        by_cases none : vex.waitingOnObjectRegistry.findNext signalled.toInt32 = 0
        · exact unchanged (by rw [signal_none manager signalled none]; exact increasePendingNotifications_keeps manager)
        · rw [signal_eq manager signalled none] at stopped unchanged ⊢
          by_cases next : t = vex.waitingOnObjectRegistry.findNext signalled.toInt32
          · rw [← next,interruptThread_waiting false (by rwa [isWaiting_of_found found])]
            exact interrupt_loses found remembered positive
          · exact unchanged (interruptThread_keeps false next)
      | releaseLock a lockId =>
        obtain ⟨-,-,rfl⟩ := Option.map_eq_some_iff.mp stepped
        exact release_loses lockId found waiting remembered positive (fun same => own (congrArg some same.symm)) stopped
      | broadcast manager signalled => cases notBroadcast
      | _ => exact absurd rfl calm

end Stopped

/-! ## Isolation -/

section Isolation
variable {locking} {vex next : Vex Locks} {ids : Set Int64} {locks : Locks} {past : List Event}

private theorem remembering_run (positive : ∀ objectId ∈ ids, 0 < objectId) (b : Int64)
    (only : ∀ earlier ∈ past, OnlyOn ids earlier) (holds : Remembering ids b vex)
    (executed : run (Vex.step locking) vex past = some next) : Remembering ids b next := by
  induction past generalizing vex with
  | nil =>
    cases executed
    exact holds
  | cons event rest ih =>
    obtain ⟨middle,stepped,remaining⟩ := (run_cons vex event rest next).mp executed
    have kept := remembering_step positive (only event List.mem_cons_self) holds stepped
    exact ih (fun later member => only later (List.mem_cons_of_mem event member)) kept remaining

/-- A record under the key of an object is that of a registration on this object. -/
private theorem registered_of_recorded {t objectId : Int64} (distinct : Set.InjOn Int64.toInt32 ids)
    (only : ∀ earlier ∈ past, OnlyOn ids earlier) (member : objectId ∈ ids)
    (executed : run (Vex.step locking) (Vex.start locks) past = some vex)
    (recorded : t ∈ records vex objectId.toInt32) : RegisteredOn past t objectId := by
  obtain before | ⟨announced,updateLockRegistry,earlier,same⟩ := recorded_run executed recorded
  · cases before
  · have equal : announced = objectId := distinct (only _ earlier) member same
    exact ⟨updateLockRegistry,equal ▸ earlier⟩

/-- A signal or a broadcast wakes only threads recorded under the key of its object. -/
private theorem recorded_of_woken {event : Event} {manager : Nat} {t objectId : Int64}
    (event_eq : event = .signal manager objectId ∨ event = .broadcast manager objectId)
    (stepped : vex.step locking event = some next) (waiting : isWaiting vex t = true)
    (stopped : isWaiting next t = false) : t ∈ records vex objectId.toInt32 := by
  have changed (keeps : Keeps t vex next) : False := by
    unfold isWaiting at waiting stopped
    rw [keeps.thread,waiting] at stopped
    cases stopped
  obtain rfl | rfl := event_eq
  · cases stepped
    by_cases none : vex.waitingOnObjectRegistry.findNext objectId.toInt32 = 0
    · rw [signal_none manager objectId none] at changed
      exact (changed (increasePendingNotifications_keeps manager)).elim
    · rw [signal_eq manager objectId none] at changed
      by_cases next : t = vex.waitingOnObjectRegistry.findNext objectId.toInt32
      · exact next ▸ findNext_mem none
      · exact (changed (interruptThread_keeps false next)).elim
  · cases stepped
    by_cases none : vex.waitingOnObjectRegistry.findNext objectId.toInt32 = 0
    · rw [broadcast_none manager objectId none] at changed
      exact (changed (increasePendingNotifications_keeps manager)).elim
    · rw [broadcast_eq manager objectId none] at changed
      by_contra absent
      exact changed (broadcast_spares objectId _ (.inl absent)).1

/-- A waiter that a broadcast wakes loses all records of the broadcast object, and one of its own. -/
private theorem broadcast_loses {manager : Nat} {t objectId signalled : Int64} {thread : Thread} (named : Named vex)
    (remembers : Remembers ids thread) (positive : 0 < objectId) (stops : StopsWaitingOn vex next t objectId thread)
    (stepped : vex.step locking (.broadcast manager signalled) = some next) :
    records next signalled.toInt32 = [] ∧ ∀ key, key ≠ signalled.toInt32 →
      (records next key).count t = (records vex key).count t - if key = objectId.toInt32 then 1 else 0 := by
  obtain ⟨found,waiting,waitsOn,stopped⟩ := stops
  obtain ⟨-,-,remembered,-⟩ := remembers.remembered objectId waitsOn
  have recorded := recorded_of_woken (.inr rfl) stepped (by rwa [isWaiting_of_found found]) stopped
  have unnamed := named.unrecorded signalled.toInt32
  have nonzero : objectId ≠ 0 := by grind
  cases stepped
  rw [broadcast_eq manager signalled (findNext_ne_zero unnamed (List.ne_nil_of_mem recorded))]
  refine ⟨broadcast_empties signalled _ le_rfl unnamed,fun key elsewhere => ?_⟩
  obtain ⟨-,-,counts⟩ := broadcast_interrupts signalled _ le_rfl unnamed recorded found waiting
  rw [counts key elsewhere,remembered]
  simp [nonzero]

private theorem isolates_of_distinct (positive : ∀ objectId ∈ ids, 0 < objectId)
    (distinct : Set.InjOn Int64.toInt32 ids) : Isolates locking locks ids := by
  intro past vex event next only now executed stepped
  have named := named_run (named_start locks) executed
  have remembering (t : Int64) : Remembering ids t vex :=
    remembering_run positive t only (fun _ found => by cases found) executed
  have registered {t objectId : Int64} (member : objectId ∈ ids) (recorded : t ∈ records vex objectId.toInt32) :
      RegisteredOn past t objectId := registered_of_recorded distinct only member executed recorded
  have member {t objectId : Int64} {thread : Thread} (stops : StopsWaitingOn vex next t objectId thread) :
      objectId ∈ ids := ((remembering t thread stops.registered).remembered objectId stops.waitsOn).1
  constructor
  · rintro manager objectId rfl found
    exact registered now (findNext_mem found)
  · rintro manager objectId rfl t recorded
    exact registered now recorded
  · intro manager objectId event_eq t waiting stopped
    have only : objectId ∈ ids := by obtain rfl | rfl := event_eq <;> exact now
    exact registered only (recorded_of_woken event_eq stepped waiting stopped)
  · intro t objectId thread stops
    have remembers := remembering t thread stops.registered
    have above := positive objectId (member stops)
    cases broadcast : broadcastObject event with
    | none =>
      have loses := loses_of_stops remembers above stops stepped broadcast objectId.toInt32
      simpa using loses
    | some signalled =>
      cases event with
      | broadcast manager objectId' =>
        cases broadcast
        obtain ⟨emptied,counts⟩ := broadcast_loses named remembers above stops stepped
        split_ifs with same
        · cases same
          rw [emptied]
          exact List.not_mem_nil
        · have elsewhere : objectId.toInt32 ≠ signalled.toInt32 := fun equal =>
            same (congrArg some (distinct (member stops) now equal).symm)
          rw [counts _ elsewhere,if_pos rfl]
      | _ => cases broadcast
  · intro t objectId thread stops other only' apart notBroadcast
    have remembers := remembering t thread stops.registered
    have above := positive objectId (member stops)
    have elsewhere : other.toInt32 ≠ objectId.toInt32 := fun equal => apart (distinct only' (member stops) equal)
    cases broadcast : broadcastObject event with
    | none =>
      have loses := loses_of_stops remembers above stops stepped broadcast other.toInt32
      rwa [if_neg elsewhere] at loses
    | some signalled =>
      cases event with
      | broadcast manager objectId' =>
        cases broadcast
        obtain ⟨-,counts⟩ := broadcast_loses named remembers above stops stepped
        have spared : other.toInt32 ≠ signalled.toInt32 := fun equal =>
          notBroadcast (congrArg some (distinct only' now equal).symm)
        rw [counts _ spared,if_neg elsewhere]
        rfl
      | _ => cases broadcast

/-- Thread 1 registers on the object. -/
private def registration (objectId : Int64) : List Event := [.spawn 1 0 0 false,.register 1 objectId false]

/-- The thread once it has registered. -/
private def announced (objectId : Int64) : Thread where
  state := ((VexThreadState.init 0).setAwaken false).setRunning
  threadCurrentlyControllingManager := 0
  blocked := false
  position := .registered objectId false

private theorem registration_run (locking : LockOperations Locks) (locks : Locks) (objectId : Int64) :
    ∃ vex, run (Vex.step locking) (Vex.start locks) (registration objectId) = some vex ∧
      vex.threadRegistry 1 = some (announced objectId) ∧ records vex objectId.toInt32 = [1] := by
  refine ⟨_,rfl,rfl,?_⟩
  dsimp only [beforeReleasingLockOfAnyReplacedWaiting]
  rw [if_neg Bool.false_ne_true,records,setPosition_records,setRegistry_records,ObjectRegistry.threadsWaiting_insert,
    if_pos rfl]
  rfl

/-- Two identifiers with one key: the record of the one is found for the other. -/
private theorem distinct_of_isolates (isolates : Isolates locking locks ids) : Set.InjOn Int64.toInt32 ids := by
  intro first firstMember second secondMember same
  obtain ⟨vex,executed,-,recorded⟩ := registration_run locking locks first
  have only : ∀ earlier ∈ registration first, OnlyOn ids earlier := by
    simpa [registration,OnlyOn] using firstMember
  have next : vex.waitingOnObjectRegistry.findNext second.toInt32 = 1 := by
    rw [findNext_eq,← same,recorded]
    rfl
  have isolated := isolates _ vex (.signal 0 second) _ only secondMember executed rfl
  obtain ⟨updateLockRegistry,registered⟩ := isolated.signalled 0 second rfl (by rw [next]; decide)
  rw [next] at registered
  simp only [registration,List.mem_cons,List.not_mem_nil,reduceCtorEq,Event.register.injEq,false_or,or_false] at registered
  exact registered.2.1.symm

/-- A thread does not remember an identifier that is not positive, so its record outlives its wait. -/
private theorem positive_of_isolates (isolates : Isolates locking locks ids) : ∀ objectId ∈ ids, 0 < objectId := by
  intro objectId member
  by_contra notPositive
  obtain ⟨vex,executed,found,recorded⟩ := registration_run locking locks objectId
  have only : ∀ earlier ∈ registration objectId ++ [.timedWait 1 1 0], OnlyOn ids earlier := by
    simpa [registration,OnlyOn] using member
  have stepped : vex.step locking (.timedWait 1 1 0) =
      some (vex.onReplacedTimedWaitingStart 1 objectId 1000000 (.replacedTimedWaiting objectId false)) := by
    have duration : ensureTimeoutIsLessThanMax 1 0 = 1000000 := by decide
    simp [step,actor,found,Option.filter,announced,Thread.isFree,VexThreadState.isRunning,duration,
      VexThreadState.setRunning,VexThreadState.setNewState]
  have forgets (state : VexThreadState) : state.setWaitingObjectId objectId = state := if_neg notPositive
  have waiting := timedWaitStart_thread objectId 1000000 (.replacedTimedWaiting objectId false) found
  rw [forgets] at waiting
  have queued : 1 ∈ (vex.onReplacedTimedWaitingStart 1 objectId 1000000
      (.replacedTimedWaiting objectId false)).runnableThreads := by
    simp [onReplacedTimedWaitingStart,onReplacedTimedWaiting,setTimedWaitingThread,pushRunnable,onBlockedWaitingInVex,
      setBlocked,onState,onThread]
  have kept : records (vex.onReplacedTimedWaitingStart 1 objectId 1000000
      (.replacedTimedWaiting objectId false)) objectId.toInt32 = [1] := by
    rw [records,onReplacedTimedWaitingStart_records]
    exact recorded
  have executed := run_snoc executed stepped
  generalize vex.onReplacedTimedWaitingStart 1 objectId 1000000 (.replacedTimedWaiting objectId false) = before at *
  have popped : (before.popRunnable 1).threadRegistry 1 = before.threadRegistry 1 := rfl
  rw [waiting] at popped
  have expired := onState_self (fun state => state.setTimedOut true) (interrupt_thread popped)
  have unrecorded : records (((before.popRunnable 1).onAnyReplacedWaitingInterrupt 1).onState 1
      fun state => state.setTimedOut true) objectId.toInt32 = [1] := by
    rw [records,onState_records,interrupt_records popped]
    exact kept
  have timedOut : before.step locking (.continueThread 0 1 true) =
      (((before.popRunnable 1).onAnyReplacedWaitingInterrupt 1).onState 1
        fun state => state.setTimedOut true).resumeThread 1 0 := by
    simp only [step,continueThread,waiting,if_pos queued]
    rfl
  generalize ((before.popRunnable 1).onAnyReplacedWaitingInterrupt 1).onState 1 (fun state => state.setTimedOut true) =
    suspended at *
  cases resumed : suspended.resumeThread 1 0 with
  | none => simp [resumeThread,expired] at resumed
  | some next =>
    obtain ⟨-,-,woken⟩ := resumeThread_self expired resumed
    have isolated := isolates _ before (.continueThread 0 1 true) next only trivial executed
      (timedOut.trans resumed)
    have removed := isolated.removed 1 objectId _ ⟨waiting,rfl,⟨false,.inr rfl⟩,
      by rw [isWaiting_of_found woken]; rfl⟩
    have same : records next objectId.toInt32 = [1] := by rw [records,resumeThread_records resumed,← records,unrecorded]
    rw [same,kept] at removed
    simp [broadcastObject] at removed

end Isolation

/-- Objects are isolated from each other exactly if their identifiers are positive and no two of them
    are the same `int`. -/
theorem isolates_iff (locking : LockOperations Locks) (locks : Locks) (ids : Set Int64) :
    Isolates locking locks ids ↔ (∀ objectId ∈ ids, 0 < objectId) ∧ Set.InjOn Int64.toInt32 ids :=
  ⟨fun isolates => ⟨positive_of_isolates isolates,distinct_of_isolates isolates⟩,
    fun ⟨positive,distinct⟩ => isolates_of_distinct positive distinct⟩

/-- Two addresses 2^32 apart. -/
private def address : Int64 := 0x7F0000001000

private def aliasAddress : Int64 := 0x7F0100001000

private def waitEvents : List Event := [.spawn 1 0 0 false,.register 1 address false,.wait 1]

/-- A thread that registered on one object only, and waits on it, is woken by a signal on another. -/
theorem signal_on_alias_wakes : ∃ vex next : Vex (LockRegistry.Registry (LockRegistry.LockRegistryInfo Int64)),
    run (Vex.step LockRegistry.operations) (Vex.start fun _ => none) waitEvents = some vex ∧
      vex.step LockRegistry.operations (.signal 0 aliasAddress) = some next ∧
      isWaiting vex 1 = true ∧ isWaiting next 1 = false ∧ ¬ RegisteredOn waitEvents 1 aliasAddress ∧
      ¬ Isolates LockRegistry.operations (fun _ => none) {address,aliasAddress} := by
  have checked : (run (Vex.step LockRegistry.operations) (Vex.start fun _ => none) waitEvents).any (fun vex =>
      isWaiting vex 1 && (vex.step LockRegistry.operations (.signal 0 aliasAddress)).any fun next =>
        !isWaiting next 1) = true := by decide +kernel
  obtain ⟨vex,executed,properties⟩ := exists_of_checked checked
  cases stepped : vex.step LockRegistry.operations (.signal 0 aliasAddress) with
  | none => simp [stepped] at properties
  | some next =>
    simp only [stepped,Option.any_some,Bool.and_eq_true,Bool.not_eq_true'] at properties
    obtain ⟨waiting,woken⟩ := properties
    have unregistered : ¬ RegisteredOn waitEvents 1 aliasAddress := by
      rintro ⟨updateLockRegistry,registered⟩
      simp only [waitEvents,List.mem_cons,List.not_mem_nil,reduceCtorEq,Event.register.injEq,false_or,or_false] at registered
      exact absurd registered.2.1 (by decide)
    refine ⟨vex,next,executed,stepped,waiting,woken,unregistered,fun isolates => unregistered ?_⟩
    have only : ∀ earlier ∈ waitEvents, OnlyOn {address,aliasAddress} earlier := by simp [waitEvents,OnlyOn]
    have now : OnlyOn {address,aliasAddress} (.signal 0 aliasAddress) := by simp [OnlyOn]
    exact (isolates waitEvents vex _ next only now executed stepped).woken 0 aliasAddress (.inl rfl) 1 waiting woken

end Vexjine.WaitObjects
