import Vexjine.WaitObjects

/-!
# Wake-ups

A thread registers on an object while it runs, and waits on it later; a signal
looks only at the last record of its object. Whether a signal or a broadcast
reaches the live waiters is decided by the state before it.
-/

namespace Vexjine.WakeUps
open Vexjine.Runs Vexjine.Vex Vexjine.Signals
open Vexjine.WaitObjects (waitsOn)
set_option linter.unusedSimpArgs false

variable {Locks : Type}

/-- The thread has registered on the object and not waited yet, or it waits on it. -/
structure LiveWaiter (vex : Vex Locks) (objectId t : Int64) : Prop where
  recorded : t ∈ records vex objectId.toInt32
  live : ∃ thread, vex.threadRegistry t = some thread ∧
    ((∃ updateLockRegistry, thread.position = .registered objectId updateLockRegistry) ∨
      thread.state.isWaiting = true ∧ waitsOn thread objectId)

/-- The test of the scheduler on a suspended thread. -/
def mayContinue (state : VexThreadState) : Bool :=
  state.isSuspended && (state.timedOut || (decide (state.timeout ≠ 0) && state.isNotAfterInterruptedTimedParking))

/-- The thread is queued, and suspended so that the scheduler resumes it. -/
structure Resumable (vex : Vex Locks) (t : Int64) : Prop where
  queued : t ∈ vex.runnableThreads
  suspended : (vex.threadRegistry t).any (fun thread => mayContinue thread.state) = true

structure MadeResumable (vex next : Vex Locks) (t : Int64) : Prop where
  before : ¬ Resumable vex t
  after : Resumable next t

/-- One live waiter is made resumable and loses its record; all other threads are left alone. -/
structure WakesOne (vex next : Vex Locks) (objectId t : Int64) : Prop where
  live : LiveWaiter vex objectId t
  made : MadeResumable vex next t
  removed : records next objectId.toInt32 = (records vex objectId.toInt32).erase t
  others : ∀ x, x ≠ t → Keeps x vex next

/-- A signal on an object with a live waiter wakes one, and a broadcast wakes them all. -/
def NoWakeUpLost (vex : Vex Locks) : Event → Prop
  | .signal manager objectId => (∃ t, LiveWaiter vex objectId t) →
    ∃ t, WakesOne vex (vex.onSignallingOneThreadOnObject manager objectId).2 objectId t
  | .broadcast manager objectId => ∀ t, LiveWaiter vex objectId t →
    MadeResumable vex (vex.onSignallingAllThreadsOnObject manager objectId).2 t
  | _ => True

/-- A live waiter in state WAITING that an interrupt leaves in the queue. -/
structure Interruptible (vex : Vex Locks) (objectId t : Int64) (thread : Thread) : Prop where
  live : LiveWaiter vex objectId t
  registered : vex.threadRegistry t = some thread
  waiting : thread.state.isWaiting = true
  queued : t ∈ vex.runnableThreads ∨ thread.state.timeout = 0 ∨ thread.state.timeout = -2

/-- The last record of the object is that of an interruptible waiter, which remembers the object;
    for a broadcast, every live waiter is interruptible. -/
def Reaches (vex : Vex Locks) : Event → Prop
  | .signal _ objectId => (∃ t, LiveWaiter vex objectId t) →
    ∃ t thread, (records vex objectId.toInt32).getLast? = some t ∧ Interruptible vex objectId t thread ∧
      thread.state.timedWaitingObjectId ≠ 0 ∧ thread.state.timedWaitingObjectId.toInt32 = objectId.toInt32
  | .broadcast _ objectId => ∀ t, LiveWaiter vex objectId t → ∃ thread, Interruptible vex objectId t thread
  | _ => True

/-- One signal of each manager. -/
def signals (managers : List Nat) (objectId : Int64) : List Event := managers.map fun manager => .signal manager objectId

/-- The signals wake as many distinct live waiters as there are signals. -/
def WakesAsMany (locking : LockOperations Locks) (vex : Vex Locks) (managers : List Nat) (objectId : Int64) : Prop :=
  ∃ (woken : List Int64) (next : Vex Locks), run (Vex.step locking) vex (signals managers objectId) = some next ∧
    woken.Nodup ∧ woken.length = managers.length ∧ ∀ t ∈ woken, LiveWaiter vex objectId t ∧ MadeResumable vex next t

/-! ## Resumption -/

variable {vex next : Vex Locks} {t objectId : Int64} {thread : Thread}

/-- A manager that pops a resumable thread resumes it. -/
theorem continueThread_of_resumable (manager : Nat) (leapIsValid : Bool) (resumable : Resumable vex t) :
    vex.continueThread t manager leapIsValid = (vex.popRunnable t).resumeThread t manager := by
  obtain ⟨queued,suspended⟩ := resumable
  cases found : vex.threadRegistry t with
  | none => simp [found] at suspended
  | some thread =>
    simp only [found,Option.any_some,mayContinue,Bool.and_eq_true] at suspended
    unfold continueThread
    simp only [found,if_pos queued,if_pos suspended.1,if_pos suspended.2]

private theorem resumable_of_keeps (keeps : Keeps t vex next) : Resumable next t ↔ Resumable vex t := by
  constructor
  · rintro ⟨queued,suspended⟩
    exact ⟨keeps.queued.mp queued,keeps.thread ▸ suspended⟩
  · rintro ⟨queued,suspended⟩
    exact ⟨keeps.queued.mpr queued,keeps.thread ▸ suspended⟩

private theorem not_made_of_keeps (keeps : Keeps t vex next) : ¬ MadeResumable vex next t :=
  fun made => made.before ((resumable_of_keeps keeps).mp made.after)

/-- A waiting thread is made resumable by its interrupt if it is in the queue then. -/
private theorem made_iff (found : vex.threadRegistry t = some thread) (waiting : thread.state.isWaiting = true)
    (interrupted : next.threadRegistry t =
      some { thread with state := thread.state.beforeThreadInterrupt.setTimedOut true }) :
    MadeResumable vex next t ↔ t ∈ next.runnableThreads := by
  constructor
  · exact fun made => made.after.queued
  · refine fun queued => ⟨?_,queued,?_⟩
    · rintro ⟨-,suspended⟩
      rw [VexThreadState.isWaiting,decide_eq_true_eq] at waiting
      simp [found,mayContinue,VexThreadState.isSuspended,waiting] at suspended
    · rw [interrupted,VexThreadState.beforeThreadInterrupt_eq]
      simp [mayContinue,VexThreadState.isSuspended,VexThreadState.setTimedOut]

private theorem live_of_keeps (keeps : Keeps t vex next)
    (recorded : t ∈ records next objectId.toInt32 ↔ t ∈ records vex objectId.toInt32) :
    LiveWaiter next objectId t ↔ LiveWaiter vex objectId t := by
  constructor
  · rintro ⟨member,thread,found,live⟩
    exact ⟨recorded.mp member,thread,keeps.thread ▸ found,live⟩
  · rintro ⟨member,thread,found,live⟩
    exact ⟨recorded.mpr member,thread,keeps.thread.trans found,live⟩

/-! ## Signals -/

section Signal
variable {manager : Nat}

/-- The records of an object with a live waiter end with a thread, the one that a signal selects. -/
private theorem selected_of_live (manager : Nat) (named : Named vex) (live : LiveWaiter vex objectId t) :
    ∃ selected, (records vex objectId.toInt32).getLast? = some selected ∧
      (vex.onSignallingOneThreadOnObject manager objectId).2 = (vex.interruptThread selected false).2 := by
  have found := findNext_ne_zero (named.unrecorded objectId.toInt32) (List.ne_nil_of_mem live.recorded)
  cases last : (records vex objectId.toInt32).getLast? with
  | none =>
    rw [findNext_eq,last] at found
    exact absurd rfl found
  | some selected =>
    refine ⟨selected,rfl,?_⟩
    rw [signal_eq manager objectId found,findNext_eq,last]
    rfl

private theorem interruptThread_erases (key : Int32) (found : vex.threadRegistry t = some thread)
    (waiting : thread.state.isWaiting = true) :
    records (vex.interruptThread t false).2 key =
      if thread.state.timedWaitingObjectId ≠ 0 ∧ thread.state.timedWaitingObjectId.toInt32 = key then
        (records vex key).erase t
      else records vex key := by
  rw [interruptThread_waiting false (by rwa [isWaiting_of_found found])]
  unfold records
  rw [onState_records,interrupt_records found]
  by_cases forgotten : thread.state.timedWaitingObjectId = 0
  · simp [forgotten]
  · by_cases same : thread.state.timedWaitingObjectId.toInt32 = key
    · rw [if_neg forgotten,ObjectRegistry.threadsWaiting_erase,if_pos same.symm,if_pos ⟨forgotten,same⟩,same]
    · rw [if_neg forgotten,ObjectRegistry.threadsWaiting_erase,if_neg (Ne.symm same),if_neg (fun both => same both.2)]

private theorem interrupt_made (interruptible : Interruptible vex objectId t thread) :
    MadeResumable vex (vex.interruptThread t false).2 t := by
  obtain ⟨-,found,waiting,queued⟩ := interruptible
  exact (made_iff found waiting (interruptThread_thread false found waiting)).mpr
    ((interruptThread_queue false found waiting).mpr queued)

private theorem wakes_of_reaches (named : Named vex) (reaches : Reaches vex (.signal manager objectId)) :
    NoWakeUpLost vex (.signal manager objectId) := by
  rintro ⟨t,live⟩
  obtain ⟨selected,last,signal⟩ := selected_of_live manager named live
  obtain ⟨woken,thread,lastToo,interruptible,remembered⟩ := reaches ⟨t,live⟩
  rw [last] at lastToo
  cases lastToo
  rw [signal]
  refine ⟨selected,interruptible.live,interrupt_made interruptible,?_,fun x other => interruptThread_keeps false other⟩
  rw [interruptThread_erases _ interruptible.registered interruptible.waiting,if_pos remembered]

/-- A signal that wakes a waiter wakes the last recorded one, and so that one was interruptible. -/
private theorem reaches_of_wakes (named : Named vex) (wakes : NoWakeUpLost vex (.signal manager objectId)) :
    Reaches vex (.signal manager objectId) := by
  rintro ⟨waiter,waiterLive⟩
  obtain ⟨selected,last,signal⟩ := selected_of_live manager named waiterLive
  obtain ⟨t,live,made,removed,-⟩ := wakes ⟨waiter,waiterLive⟩
  rw [signal] at made removed
  have same : t = selected := by
    by_contra other
    exact not_made_of_keeps (interruptThread_keeps false other) made
  subst same
  cases found : vex.threadRegistry t with
  | none =>
    have idle : isWaiting vex t = false := by simp [isWaiting,found]
    rw [interruptThread_idle false idle] at made
    exact absurd made (not_made_of_keeps (.refl t vex))
  | some thread =>
    by_cases waiting : thread.state.isWaiting = true
    · have queued := (made_iff found waiting (interruptThread_thread false found waiting)).mp made
      have interruptible : Interruptible vex objectId t thread :=
        ⟨live,found,waiting,(interruptThread_queue false found waiting).mp queued⟩
      refine ⟨t,thread,last,interruptible,?_⟩
      by_contra forgotten
      rw [interruptThread_erases _ found waiting,if_neg forgotten] at removed
      have shorter := List.length_erase_of_mem live.recorded
      have positive := List.length_pos_of_mem live.recorded
      rw [← removed] at shorter
      omega
    · have idle : isWaiting vex t = false := by
        rw [isWaiting_of_found found]
        simpa using waiting
      rw [interruptThread_idle false idle] at made
      exact absurd made (not_made_of_keeps (.refl t vex))

end Signal

/-! ## Broadcasts -/

section Broadcast
variable {manager : Nat}

/-- A broadcast interrupts the live waiters in state WAITING, and leaves the other threads alone. -/
private theorem broadcast_live (named : Named vex) (live : LiveWaiter vex objectId t) :
    MadeResumable vex (vex.onSignallingAllThreadsOnObject manager objectId).2 t ↔
      ∃ thread, Interruptible vex objectId t thread := by
  have unnamed := named.unrecorded objectId.toInt32
  rw [broadcast_eq manager objectId (findNext_ne_zero unnamed (List.ne_nil_of_mem live.recorded))]
  obtain ⟨thread,found,-⟩ := live.live
  by_cases waiting : thread.state.isWaiting = true
  · obtain ⟨interrupted,queued,-⟩ := broadcast_interrupts objectId _ le_rfl unnamed live.recorded found waiting
    rw [made_iff found waiting interrupted,queued]
    constructor
    · exact fun queue => ⟨thread,live,found,waiting,queue⟩
    · rintro ⟨other,-,foundToo,-,queue⟩
      rw [found] at foundToo
      cases foundToo
      exact queue
  · have idle : isWaiting vex t = false := by
      rw [isWaiting_of_found found]
      simpa using waiting
    have spared := (broadcast_spares objectId (records vex objectId.toInt32).length (.inr idle)).1
    refine iff_of_false (not_made_of_keeps spared) ?_
    rintro ⟨other,-,foundToo,waitingToo,-⟩
    rw [found] at foundToo
    cases foundToo
    exact waiting waitingToo

end Broadcast

private theorem reaches_iff (vex : Vex Locks) (event : Event) (named : Named vex) :
    Reaches vex event ↔ NoWakeUpLost vex event := by
  cases event with
  | signal manager objectId => exact ⟨wakes_of_reaches named,reaches_of_wakes named⟩
  | broadcast manager objectId => exact forall₂_congr fun t live => (broadcast_live named live).symm
  | _ => exact Iff.rfl

/-! ## Several signals -/

variable (locking : LockOperations Locks)

/-- A series of signals that are all reached, on at least as many live waiters, wakes distinct ones. -/
private theorem signals_wake (managers : List Nat) (waiters : List Int64) (named : Named vex) (distinct : waiters.Nodup)
    (live : ∀ t ∈ waiters, LiveWaiter vex objectId t) (enough : managers.length ≤ waiters.length)
    (reaches : Meets (Vex.step locking) Reaches vex (signals managers objectId)) :
    ∃ (woken : List Int64) (next : Vex Locks), run (Vex.step locking) vex (signals managers objectId) = some next ∧
      woken.Nodup ∧ woken.length = managers.length ∧
      (∀ t ∈ woken, LiveWaiter vex objectId t ∧ MadeResumable vex next t) ∧ ∀ t, t ∉ woken → Keeps t vex next := by
  induction managers generalizing vex waiters with
  | nil => exact ⟨[],vex,rfl,List.nodup_nil,rfl,fun _ member => (by cases member),fun t _ => .refl t vex⟩
  | cons manager rest ih =>
    obtain ⟨first,later⟩ := reaches
    have nonempty : waiters ≠ [] := by
      rintro rfl
      cases enough
    obtain ⟨waiter,member⟩ := List.exists_mem_of_ne_nil waiters nonempty
    obtain ⟨t,wakes⟩ := wakes_of_reaches named first ⟨waiter,live waiter member⟩
    have stepped : vex.step locking (.signal manager objectId) =
        some (vex.onSignallingOneThreadOnObject manager objectId).2 := rfl
    generalize (vex.onSignallingOneThreadOnObject manager objectId).2 = middle at wakes stepped
    have recorded {x : Int64} (other : x ≠ t) :
        x ∈ records middle objectId.toInt32 ↔ x ∈ records vex objectId.toInt32 := by
      rw [wakes.removed,List.mem_erase_of_ne other]
    have liveStill {x : Int64} (other : x ≠ t) : LiveWaiter middle objectId x ↔ LiveWaiter vex objectId x :=
      live_of_keeps (wakes.others x other) (recorded other)
    obtain ⟨woken,next,executed,distinctWoken,length,made,spared⟩ := ih (waiters.erase t) (named_step named stepped)
      (distinct.erase t) (fun x member => by
        obtain ⟨other,before⟩ := (distinct.mem_erase_iff).mp member
        exact (liveStill other).mpr (live x before))
      (by
        have shorter : waiters.length - 1 ≤ (waiters.erase t).length := List.le_length_erase
        simp only [List.length_cons] at enough
        omega)
      (later middle stepped)
    -- a thread that is resumable already is not made so again
    have fresh : t ∉ woken := fun member => (made t member).2.before wakes.made.after
    refine ⟨t :: woken,next,(run_cons vex _ _ next).mpr ⟨middle,stepped,executed⟩,
      List.nodup_cons.mpr ⟨fresh,distinctWoken⟩,by simp [length],?_,?_⟩
    · intro x member
      obtain rfl | later := List.mem_cons.mp member
      · exact ⟨wakes.live,wakes.made.before,(resumable_of_keeps (spared x fresh)).mpr wakes.made.after⟩
      · have other : x ≠ t := by
          rintro rfl
          exact fresh later
        obtain ⟨liveBefore,before,after⟩ := made x later
        exact ⟨(liveStill other).mp liveBefore,fun resumable =>
          before ((resumable_of_keeps (wakes.others x other)).mpr resumable),after⟩
    · intro x absent
      obtain ⟨other,later⟩ := not_or.mp (List.mem_cons.not.mp absent)
      exact (wakes.others x other).trans (spared x later)

/-- No wake-up is lost in a run exactly if every signal and broadcast of it finds interruptible
    waiters; and after such a run so many signals as there are live waiters wake so many of them. -/
theorem no_wake_up_lost_iff (locking : LockOperations Locks) (locks : Locks) (events : List Event) :
    (Meets (Vex.step locking) Reaches (Vex.start locks) events ↔
      Meets (Vex.step locking) NoWakeUpLost (Vex.start locks) events) ∧
    ∀ (vex : Vex Locks) (objectId : Int64) (waiters : List Int64) (managers : List Nat),
      run (Vex.step locking) (Vex.start locks) events = some vex → waiters.Nodup →
      (∀ t ∈ waiters, LiveWaiter vex objectId t) → managers.length ≤ waiters.length →
      Meets (Vex.step locking) Reaches vex (signals managers objectId) → WakesAsMany locking vex managers objectId := by
  constructor
  · exact meets_congr_of_invariant (fun _ _ _ named _ stepped => named_step named stepped) reaches_iff (named_start locks) events
  · intro vex objectId waiters managers executed distinct live enough reaches
    have named := named_run (named_start locks) executed
    obtain ⟨woken,next,signalled,distinctWoken,length,made,-⟩ :=
      signals_wake locking managers waiters named distinct live enough reaches
    exact ⟨woken,next,signalled,distinctWoken,length,made⟩

/-- Threads 1 and 2 wait for a millisecond on object 5. -/
private def twoWaitEvents : List Event := [.spawn 1 0 0 false,.register 1 5 false,.timedWait 1 1 0,
  .spawn 2 0 0 false,.register 2 5 false,.timedWait 2 1 0]

/-- The test that the thread waits on the object. -/
private def waitsThere (objectId t : Int64) (vex : Vex (LockRegistry.Registry (LockRegistry.LockRegistryInfo Int64))) : Bool :=
  decide (t ∈ records vex objectId.toInt32) && (vex.threadRegistry t).any fun thread => thread.state.isWaiting &&
    (decide (thread.position = .replacedTimedWaiting objectId false) || decide (thread.position = .replacedWaiting objectId true))

private theorem live_of_waitsThere {vex : Vex (LockRegistry.Registry (LockRegistry.LockRegistryInfo Int64))}
    (waits : waitsThere objectId t vex = true) : LiveWaiter vex objectId t := by
  rw [waitsThere,Bool.and_eq_true,decide_eq_true_eq] at waits
  obtain ⟨recorded,waits⟩ := waits
  cases found : vex.threadRegistry t with
  | none => simp [found] at waits
  | some thread =>
    simp only [found,Option.any_some,Bool.and_eq_true,Bool.or_eq_true,decide_eq_true_eq] at waits
    obtain ⟨waiting,timed | untimed⟩ := waits
    · exact ⟨recorded,thread,found,.inr ⟨waiting,false,.inr timed⟩⟩
    · exact ⟨recorded,thread,found,.inr ⟨waiting,true,.inl untimed⟩⟩

/-- The test that a signal on the object finds a queued waiter. -/
private def findsQueued (objectId : Int64) (vex : Vex (LockRegistry.Registry (LockRegistry.LockRegistryInfo Int64))) : Bool :=
  (records vex objectId.toInt32).getLast?.any fun t => waitsThere objectId t vex && decide (t ∈ vex.runnableThreads) &&
    (vex.threadRegistry t).any fun thread => thread.state.isWaiting && decide (thread.state.timedWaitingObjectId ≠ 0 ∧
      thread.state.timedWaitingObjectId.toInt32 = objectId.toInt32)

private theorem reaches_of_findsQueued {vex : Vex (LockRegistry.Registry (LockRegistry.LockRegistryInfo Int64))}
    (manager : Nat) (finds : findsQueued objectId vex = true) : Reaches vex (.signal manager objectId) := by
  intro _
  unfold findsQueued at finds
  cases last : (records vex objectId.toInt32).getLast? with
  | none => simp [last] at finds
  | some t =>
    simp only [last,Option.any_some,Bool.and_eq_true,decide_eq_true_eq] at finds
    obtain ⟨⟨waits,queued⟩,remembers⟩ := finds
    cases found : vex.threadRegistry t with
    | none => simp [found] at remembers
    | some thread =>
      simp only [found,Option.any_some,Bool.and_eq_true,decide_eq_true_eq] at remembers
      exact ⟨t,thread,rfl,⟨live_of_waitsThere waits,found,remembers.1,.inl queued⟩,remembers.2⟩

theorem two_signals_wake_two : ∃ vex : Vex (LockRegistry.Registry (LockRegistry.LockRegistryInfo Int64)),
    run (Vex.step LockRegistry.operations) (Vex.start fun _ => none) twoWaitEvents = some vex ∧
      WakesAsMany LockRegistry.operations vex [0,0] 5 := by
  have checked : (run (Vex.step LockRegistry.operations) (Vex.start fun _ => none) twoWaitEvents).any (fun vex =>
      (waitsThere 5 1 vex && waitsThere 5 2 vex) && (findsQueued 5 vex &&
        findsQueued 5 (vex.onSignallingOneThreadOnObject 0 5).2)) = true := by decide +kernel
  obtain ⟨vex,executed,properties⟩ := exists_of_checked checked
  simp only [Bool.and_eq_true] at properties
  obtain ⟨⟨first,second⟩,finds,findsAgain⟩ := properties
  have reaches : Meets (Vex.step LockRegistry.operations) Reaches vex (signals [0,0] 5) := by
    refine ⟨reaches_of_findsQueued 0 finds,fun next stepped => ?_⟩
    cases stepped
    exact ⟨reaches_of_findsQueued 0 findsAgain,fun _ _ => trivial⟩
  have live : ∀ t ∈ [1,2], LiveWaiter vex 5 t := by
    intro t member
    obtain rfl | rfl := List.mem_pair.mp member
    · exact live_of_waitsThere first
    · exact live_of_waitsThere second
  exact ⟨vex,executed,(no_wake_up_lost_iff LockRegistry.operations (fun _ => none) twoWaitEvents).2 vex 5 [1,2] [0,0]
    executed (by decide) live le_rfl reaches⟩

/-- Thread 1 waits on object 5; thread 2 has registered on it and released its lock, and still runs. -/
private def registeredEvents : List Event := [.spawn 1 0 0 false,.requestLock 1 5,.register 1 5 true,.wait 1,
  .spawn 2 0 0 false,.requestLock 2 5,.register 2 5 true]

/-- The record of the running thread swallows a signal. -/
theorem signal_is_swallowed : ∃ vex : Vex (LockRegistry.Registry (LockRegistry.LockRegistryInfo Int64)),
    run (Vex.step LockRegistry.operations) (Vex.start fun _ => none) registeredEvents = some vex ∧
      LiveWaiter vex 5 1 ∧ isWaiting (vex.onSignallingOneThreadOnObject 0 5).2 1 = true ∧
      ¬ NoWakeUpLost vex (.signal 0 5) := by
  have checked : (run (Vex.step LockRegistry.operations) (Vex.start fun _ => none) registeredEvents).any (fun vex =>
      waitsThere 5 1 vex && isWaiting (vex.onSignallingOneThreadOnObject 0 5).2 1 &&
        decide ((vex.onSignallingOneThreadOnObject 0 5).2.runnableThreads = [])) = true := by decide +kernel
  obtain ⟨vex,executed,properties⟩ := exists_of_checked checked
  rw [Bool.and_eq_true,Bool.and_eq_true,decide_eq_true_eq] at properties
  obtain ⟨⟨waits,still⟩,empty⟩ := properties
  have live := live_of_waitsThere waits
  refine ⟨vex,executed,live,still,fun woken => ?_⟩
  obtain ⟨t,wakes⟩ := woken ⟨1,live⟩
  have queued := wakes.made.after.queued
  rw [empty] at queued
  cases queued

end Vexjine.WakeUps
