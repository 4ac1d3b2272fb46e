import Vexjine.ThreadEvents

/-!
# What signals do

The effect of an interrupt, of a signal and of a broadcast on the records of the
object registry, on the threads they wake and on those they do not.
-/

namespace Vexjine.Signals
open Vexjine.Runs Vexjine.Vex
set_option linter.unusedSimpArgs false

variable {Locks : Type} {locking : LockOperations Locks} {vex next : Vex Locks} {t x : Int64} {thread : Thread}

/-- The threads recorded under a key of the object registry, the latest last. -/
def records (vex : Vex Locks) (key : Int32) : List Int64 := vex.waitingOnObjectRegistry.threadsWaiting key

/-- The thread is registered and in state WAITING. -/
def isWaiting (vex : Vex Locks) (t : Int64) : Bool := (vex.threadRegistry t).any fun thread => thread.state.isWaiting

theorem isWaiting_of_found (found : vex.threadRegistry t = some thread) : isWaiting vex t = thread.state.isWaiting := by
  simp [isWaiting,found]

/-! ## One interrupt -/

theorem interrupt_count_other (key : Int32) (other : x ≠ t) :
    (records (vex.onAnyReplacedWaitingInterrupt t) key).count x = (records vex key).count x := by
  cases found : vex.threadRegistry t with
  | none => rw [interrupt_absent found]
  | some thread =>
    unfold records
    rw [interrupt_records found]
    split_ifs
    · rfl
    · rw [ObjectRegistry.threadsWaiting_erase]
      split_ifs with same
      · rw [List.count_erase_of_ne other,same]
      · rfl

/-- Of its own records the thread loses one, under the key it remembers. -/
theorem interrupt_count_self (key : Int32) (found : vex.threadRegistry t = some thread) :
    (records (vex.onAnyReplacedWaitingInterrupt t) key).count t = (records vex key).count t -
      if thread.state.timedWaitingObjectId ≠ 0 ∧ key = thread.state.timedWaitingObjectId.toInt32 then 1 else 0 := by
  unfold records
  rw [interrupt_records found]
  by_cases forgotten : thread.state.timedWaitingObjectId = 0
  · simp [forgotten]
  · rw [if_neg forgotten,ObjectRegistry.threadsWaiting_erase]
    by_cases same : key = thread.state.timedWaitingObjectId.toInt32
    · simp [forgotten,same]
    · simp [same]

theorem interrupt_subset (t : Int64) (key : Int32) :
    records (vex.onAnyReplacedWaitingInterrupt t) key ⊆ records vex key := by
  intro x member
  by_cases same : x = t
  · subst same
    cases found : vex.threadRegistry x with
    | none => rwa [interrupt_absent found] at member
    | some thread =>
      have count := interrupt_count_self key found
      rw [← List.count_pos_iff] at member ⊢
      omega
  · rwa [← List.count_pos_iff,interrupt_count_other key same,List.count_pos_iff] at member

theorem interrupt_length (t : Int64) (key : Int32) :
    (records (vex.onAnyReplacedWaitingInterrupt t) key).length ≤ (records vex key).length := by
  cases found : vex.threadRegistry t with
  | none => rw [interrupt_absent found]
  | some thread =>
    unfold records
    rw [interrupt_records found]
    split_ifs
    · rfl
    · rw [ObjectRegistry.threadsWaiting_erase]
      split_ifs with same
      · rw [same]
        exact List.length_erase_le
      · rfl

/-! ## The interrupt of one thread -/

theorem interruptThread_waiting (isThreadInterruptCall : Bool) (waiting : isWaiting vex t = true) :
    (vex.interruptThread t isThreadInterruptCall).2 =
      (vex.onAnyReplacedWaitingInterrupt t).onState t fun state => state.setTimedOut !isThreadInterruptCall := by
  unfold interruptThread
  cases found : vex.threadRegistry t with
  | none => simp [isWaiting,found] at waiting
  | some thread =>
    rw [isWaiting_of_found found] at waiting
    simp [waiting]

theorem interruptThread_idle (isThreadInterruptCall : Bool) (idle : isWaiting vex t = false) :
    (vex.interruptThread t isThreadInterruptCall).2 = vex := by
  unfold interruptThread
  cases found : vex.threadRegistry t with
  | none => rfl
  | some thread =>
    rw [isWaiting_of_found found] at idle
    simp [idle]

theorem interruptThread_count_other (isThreadInterruptCall : Bool) (key : Int32) (other : x ≠ t) :
    (records (vex.interruptThread t isThreadInterruptCall).2 key).count x = (records vex key).count x := by
  by_cases waiting : isWaiting vex t = true
  · rw [interruptThread_waiting isThreadInterruptCall waiting]
    exact interrupt_count_other key other
  · rw [interruptThread_idle isThreadInterruptCall (by simpa using waiting)]

theorem interruptThread_subset (t : Int64) (isThreadInterruptCall : Bool) (key : Int32) :
    records (vex.interruptThread t isThreadInterruptCall).2 key ⊆ records vex key := by
  by_cases waiting : isWaiting vex t = true
  · rw [interruptThread_waiting isThreadInterruptCall waiting]
    exact interrupt_subset t key
  · rw [interruptThread_idle isThreadInterruptCall (by simpa using waiting)]
    exact List.Subset.refl _

theorem interruptThread_length (t : Int64) (isThreadInterruptCall : Bool) (key : Int32) :
    (records (vex.interruptThread t isThreadInterruptCall).2 key).length ≤ (records vex key).length := by
  by_cases waiting : isWaiting vex t = true
  · rw [interruptThread_waiting isThreadInterruptCall waiting]
    exact interrupt_length t key
  · rw [interruptThread_idle isThreadInterruptCall (by simpa using waiting)]

/-- A thread that was waiting is suspended, and the flag says whether the wait timed out. -/
theorem interruptThread_thread (isThreadInterruptCall : Bool) (found : vex.threadRegistry t = some thread)
    (waiting : thread.state.isWaiting = true) :
    (vex.interruptThread t isThreadInterruptCall).2.threadRegistry t =
      some { thread with state := thread.state.beforeThreadInterrupt.setTimedOut !isThreadInterruptCall } := by
  rw [interruptThread_waiting isThreadInterruptCall (by rwa [isWaiting_of_found found])]
  exact onState_self _ (interrupt_thread found)

theorem interruptThread_queue (isThreadInterruptCall : Bool) (found : vex.threadRegistry t = some thread)
    (waiting : thread.state.isWaiting = true) :
    t ∈ (vex.interruptThread t isThreadInterruptCall).2.runnableThreads ↔
      t ∈ vex.runnableThreads ∨ thread.state.timeout = 0 ∨ thread.state.timeout = -2 := by
  rw [interruptThread_waiting isThreadInterruptCall (by rwa [isWaiting_of_found found])]
  change t ∈ (vex.onAnyReplacedWaitingInterrupt t).runnableThreads ↔ _
  rw [interrupt_queue found]
  by_cases updated : thread.state.timeout ≠ 0 ∧ thread.state.timeout ≠ -2
  · simp [updated]
  · rw [if_neg updated]
    have pushed : thread.state.timeout = 0 ∨ thread.state.timeout = -2 := by
      by_contra neither
      exact updated (not_or.mp neither)
    simp [pushed]

theorem interruptThread_count_self (isThreadInterruptCall : Bool) (key : Int32)
    (found : vex.threadRegistry t = some thread) (waiting : thread.state.isWaiting = true) :
    (records (vex.interruptThread t isThreadInterruptCall).2 key).count t = (records vex key).count t -
      if thread.state.timedWaitingObjectId ≠ 0 ∧ key = thread.state.timedWaitingObjectId.toInt32 then 1 else 0 := by
  rw [interruptThread_waiting isThreadInterruptCall (by rwa [isWaiting_of_found found])]
  exact interrupt_count_self key found

/-! ## The loop of a broadcast -/

/-- The state after one round: the last record is removed and its thread interrupted. -/
private def round (vex : Vex Locks) (objectId : Int64) : Vex Locks :=
  ((vex.setRegistry (vex.waitingOnObjectRegistry.getNext objectId.toInt32).2).interruptThread
    (vex.waitingOnObjectRegistry.findNext objectId.toInt32) false).2

private theorem records_popped (objectId : Int64) (key : Int32) :
    records (vex.setRegistry (vex.waitingOnObjectRegistry.getNext objectId.toInt32).2) key =
      if key = objectId.toInt32 then (records vex objectId.toInt32).dropLast else records vex key :=
  ObjectRegistry.threadsWaiting_getNext vex.waitingOnObjectRegistry objectId.toInt32 key

private theorem getNext_eq_findNext (registry : ObjectRegistry Int32) (key : Int32) :
    (registry.getNext key).1 = registry.findNext key := by
  rw [ObjectRegistry.getNext_fst,ObjectRegistry.findNext_eq]

theorem findNext_eq (vex : Vex Locks) (key : Int32) :
    vex.waitingOnObjectRegistry.findNext key = (records vex key).getLast?.getD 0 :=
  ObjectRegistry.findNext_eq vex.waitingOnObjectRegistry key

theorem findNext_mem {key : Int32} (found : vex.waitingOnObjectRegistry.findNext key ≠ 0) :
    vex.waitingOnObjectRegistry.findNext key ∈ records vex key := by
  rw [findNext_eq] at found ⊢
  cases last : (records vex key).getLast? with
  | none => simp [last] at found
  | some threadId => exact List.mem_of_getLast? last

/-- A list of records without zero has a next one unless it is empty. -/
theorem findNext_ne_zero {key : Int32} (named : 0 ∉ records vex key) (nonempty : records vex key ≠ []) :
    vex.waitingOnObjectRegistry.findNext key ≠ 0 := by
  rw [findNext_eq]
  cases last : (records vex key).getLast? with
  | none => exact absurd (List.getLast?_eq_none_iff.mp last) nonempty
  | some threadId =>
    intro zero
    exact named (zero ▸ List.mem_of_getLast? last)

private theorem interruptEveryNext_round (objectId : Int64) (rounds : Nat)
    (found : vex.waitingOnObjectRegistry.findNext objectId.toInt32 ≠ 0) :
    (vex.interruptEveryNext objectId (rounds + 1)).2 = ((round vex objectId).interruptEveryNext objectId rounds).2 := by
  conv_lhs => unfold interruptEveryNext
  simp only [getNext_eq_findNext,if_neg found]
  rfl

private theorem interruptEveryNext_done (objectId : Int64) (rounds : Nat)
    (empty : records vex objectId.toInt32 = []) : (vex.interruptEveryNext objectId rounds).2 = vex := by
  cases rounds with
  | zero => rfl
  | succ rounds =>
    unfold interruptEveryNext
    simp [getNext_eq_findNext,findNext_eq,empty]

private theorem round_subset (objectId : Int64) (key : Int32) : records (round vex objectId) key ⊆ records vex key := by
  refine List.Subset.trans (interruptThread_subset _ false key) ?_
  rw [records_popped]
  split_ifs with same
  · rw [same]
    exact List.dropLast_subset _
  · exact List.Subset.refl _

private theorem round_length (objectId : Int64) (nonempty : records vex objectId.toInt32 ≠ []) :
    (records (round vex objectId) objectId.toInt32).length < (records vex objectId.toInt32).length := by
  have shorter : (records (round vex objectId) objectId.toInt32).length ≤ _ :=
    interruptThread_length _ false objectId.toInt32
  rw [records_popped,if_pos rfl,List.length_dropLast] at shorter
  have positive := List.length_pos_iff.mpr nonempty
  omega

/-- A round leaves the records of other threads, except that it takes one from the end. -/
private theorem round_count_other (objectId : Int64) (key : Int32)
    (other : x ≠ vex.waitingOnObjectRegistry.findNext objectId.toInt32) :
    (records (round vex objectId) key).count x = (records vex key).count x := by
  unfold round
  rw [interruptThread_count_other false key other,records_popped]
  split_ifs with same
  · rw [same]
    rw [findNext_eq] at other
    cases last : (records vex objectId.toInt32).getLast? with
    | none => rw [List.getLast?_eq_none_iff.mp last]; rfl
    | some threadId =>
      rw [last] at other
      obtain ⟨front,split⟩ := List.getLast?_eq_some_iff.mp last
      rw [split,List.dropLast_concat,List.count_append]
      have apart : threadId ≠ x := Ne.symm other
      simp [apart]
  · rfl

private theorem round_keeps (objectId : Int64)
    (spared : x ≠ vex.waitingOnObjectRegistry.findNext objectId.toInt32 ∨ isWaiting vex x = false) :
    Keeps x vex (round vex objectId) := by
  have popped : Keeps x vex (vex.setRegistry (vex.waitingOnObjectRegistry.getNext objectId.toInt32).2) :=
    setRegistry_keeps _
  by_cases same : x = vex.waitingOnObjectRegistry.findNext objectId.toInt32
  · have idle : isWaiting vex x = false := spared.resolve_left (not_not.mpr same)
    unfold round
    rw [interruptThread_idle false (same ▸ idle)]
    exact popped
  · exact popped.trans (interruptThread_keeps false same)

/-- What each round keeps, a broadcast keeps; a round interrupts a recorded thread and adds no record. -/
theorem broadcast_rule {P : Vex Locks → Prop} (objectId : Int64)
    (kept : ∀ vex : Vex Locks, ∀ t ∈ records vex objectId.toInt32, P vex →
      let popped := vex.setRegistry (vex.waitingOnObjectRegistry.getNext objectId.toInt32).2
      records (popped.interruptThread t false).2 objectId.toInt32 ⊆ records vex objectId.toInt32 →
        P (popped.interruptThread t false).2)
    (rounds : Nat) (holds : P vex) : P (vex.interruptEveryNext objectId rounds).2 := by
  induction rounds generalizing vex with
  | zero => exact holds
  | succ rounds ih =>
    by_cases found : vex.waitingOnObjectRegistry.findNext objectId.toInt32 = 0
    · unfold interruptEveryNext
      simpa only [getNext_eq_findNext,found,if_true] using holds
    · rw [interruptEveryNext_round objectId rounds found]
      exact ih (kept vex _ (findNext_mem found) holds (round_subset objectId _))

/-- A broadcast takes all records of its object. -/
theorem broadcast_empties (objectId : Int64) (rounds : Nat) (enough : (records vex objectId.toInt32).length ≤ rounds)
    (named : 0 ∉ records vex objectId.toInt32) :
    records (vex.interruptEveryNext objectId rounds).2 objectId.toInt32 = [] := by
  induction rounds generalizing vex with
  | zero => exact List.length_eq_zero_iff.mp (Nat.le_zero.mp enough)
  | succ rounds ih =>
    by_cases empty : records vex objectId.toInt32 = []
    · rw [interruptEveryNext_done objectId _ empty,empty]
    · rw [interruptEveryNext_round objectId rounds (findNext_ne_zero named empty)]
      have shorter := round_length objectId empty
      exact ih (by omega) fun member => named (round_subset objectId _ member)

theorem broadcast_subset (objectId : Int64) (rounds : Nat) (key : Int32) :
    records (vex.interruptEveryNext objectId rounds).2 key ⊆ records vex key := by
  induction rounds generalizing vex with
  | zero => exact List.Subset.refl _
  | succ rounds ih =>
    by_cases found : vex.waitingOnObjectRegistry.findNext objectId.toInt32 = 0
    · unfold interruptEveryNext
      simp [getNext_eq_findNext,found]
    · rw [interruptEveryNext_round objectId rounds found]
      exact List.Subset.trans ih (round_subset objectId key)

private theorem round_count_elsewhere (objectId : Int64) {key : Int32} (elsewhere : key ≠ objectId.toInt32)
    (spared : x ≠ vex.waitingOnObjectRegistry.findNext objectId.toInt32 ∨ isWaiting vex x = false) :
    (records (round vex objectId) key).count x = (records vex key).count x := by
  by_cases same : x = vex.waitingOnObjectRegistry.findNext objectId.toInt32
  · have idle : isWaiting vex x = false := spared.resolve_left (not_not.mpr same)
    unfold round
    rw [interruptThread_idle false (same ▸ idle),records_popped,if_neg elsewhere]
  · exact round_count_other objectId key same

/-- A broadcast does nothing to a thread that it has no record of or that is not waiting, and
    leaves the thread's records on other objects. -/
theorem broadcast_spares (objectId : Int64) (rounds : Nat)
    (spared : x ∉ records vex objectId.toInt32 ∨ isWaiting vex x = false) :
    Keeps x vex (vex.interruptEveryNext objectId rounds).2 ∧ ∀ key, key ≠ objectId.toInt32 →
      (records (vex.interruptEveryNext objectId rounds).2 key).count x = (records vex key).count x := by
  induction rounds generalizing vex with
  | zero => exact ⟨.refl x vex,fun _ _ => rfl⟩
  | succ rounds ih =>
    by_cases found : vex.waitingOnObjectRegistry.findNext objectId.toInt32 = 0
    · unfold interruptEveryNext
      simp only [getNext_eq_findNext,found,if_true]
      exact ⟨.refl x vex,fun _ _ => trivial⟩
    · rw [interruptEveryNext_round objectId rounds found]
      have here : x ≠ vex.waitingOnObjectRegistry.findNext objectId.toInt32 ∨ isWaiting vex x = false := by
        refine spared.imp_left fun absent same => absent ?_
        rw [same]
        exact findNext_mem found
      have keeps := round_keeps objectId here
      obtain ⟨kept,counts⟩ := ih (spared.imp (fun absent member => absent (round_subset objectId _ member)) fun idle => by
        unfold isWaiting at idle ⊢
        rwa [keeps.thread])
      exact ⟨keeps.trans kept,fun key elsewhere =>
        (counts key elsewhere).trans (round_count_elsewhere objectId elsewhere here)⟩

/-- A broadcast interrupts every waiting thread that it has a record of. -/
theorem broadcast_interrupts (objectId : Int64) (rounds : Nat)
    (enough : (records vex objectId.toInt32).length ≤ rounds) (named : 0 ∉ records vex objectId.toInt32)
    (recorded : x ∈ records vex objectId.toInt32) (found : vex.threadRegistry x = some thread)
    (waiting : thread.state.isWaiting = true) :
    (vex.interruptEveryNext objectId rounds).2.threadRegistry x =
        some { thread with state := thread.state.beforeThreadInterrupt.setTimedOut true } ∧
      (x ∈ (vex.interruptEveryNext objectId rounds).2.runnableThreads ↔
        x ∈ vex.runnableThreads ∨ thread.state.timeout = 0 ∨ thread.state.timeout = -2) ∧
      ∀ key, key ≠ objectId.toInt32 →
        (records (vex.interruptEveryNext objectId rounds).2 key).count x = (records vex key).count x -
          if thread.state.timedWaitingObjectId ≠ 0 ∧ key = thread.state.timedWaitingObjectId.toInt32 then 1 else 0 := by
  induction rounds generalizing vex with
  | zero =>
    rw [List.length_eq_zero_iff.mp (Nat.le_zero.mp enough)] at recorded
    cases recorded
  | succ rounds ih =>
    have nonempty : records vex objectId.toInt32 ≠ [] := List.ne_nil_of_mem recorded
    have next := findNext_ne_zero named nonempty
    rw [interruptEveryNext_round objectId rounds next]
    by_cases same : x = vex.waitingOnObjectRegistry.findNext objectId.toInt32
    · -- its own round; it is suspended for the rest of the loop
      have own : round vex objectId =
          ((vex.setRegistry (vex.waitingOnObjectRegistry.getNext objectId.toInt32).2).interruptThread x false).2 := by
        rw [same]
        rfl
      generalize popped : vex.setRegistry (vex.waitingOnObjectRegistry.getNext objectId.toInt32).2 = before at own
      have before_thread : before.threadRegistry x = some thread := popped ▸ found
      have interrupted : (round vex objectId).threadRegistry x =
          some { thread with state := thread.state.beforeThreadInterrupt.setTimedOut true } := by
        rw [own]
        exact interruptThread_thread false before_thread waiting
      have asleep : isWaiting (round vex objectId) x = false := by
        rw [isWaiting_of_found interrupted,VexThreadState.beforeThreadInterrupt_eq]
        rfl
      obtain ⟨kept,counts⟩ := broadcast_spares objectId rounds (.inr asleep)
      refine ⟨kept.thread.trans interrupted,kept.queued.trans ?_,fun key elsewhere => ?_⟩
      · rw [own,interruptThread_queue false before_thread waiting,← popped]
        rfl
      · rw [counts key elsewhere,own,interruptThread_count_self false key before_thread waiting,← popped,
          records_popped,if_neg elsewhere]
    · have keeps := round_keeps objectId (.inl same)
      have shorter := round_length objectId nonempty
      have still : x ∈ records (round vex objectId) objectId.toInt32 := by
        rw [← List.count_pos_iff,round_count_other objectId _ same,List.count_pos_iff]
        exact recorded
      obtain ⟨interrupted,queued,counts⟩ := ih (by omega) (fun member => named (round_subset objectId _ member)) still
        (keeps.thread.trans found)
      refine ⟨interrupted,queued.trans (or_congr_left keeps.queued),fun key elsewhere => ?_⟩
      rw [counts key elsewhere,round_count_other objectId key same]

/-! ## The whole signal -/

theorem signal_eq (manager : Nat) (objectId : Int64) (found : vex.waitingOnObjectRegistry.findNext objectId.toInt32 ≠ 0) :
    (vex.onSignallingOneThreadOnObject manager objectId).2 =
      (vex.interruptThread (vex.waitingOnObjectRegistry.findNext objectId.toInt32) false).2 := by
  simp [onSignallingOneThreadOnObject,found]

theorem signal_none (manager : Nat) (objectId : Int64) (none : vex.waitingOnObjectRegistry.findNext objectId.toInt32 = 0) :
    (vex.onSignallingOneThreadOnObject manager objectId).2 = vex.increasePendingNotifications manager := by
  simp [onSignallingOneThreadOnObject,none]

theorem broadcast_eq (manager : Nat) (objectId : Int64) (found : vex.waitingOnObjectRegistry.findNext objectId.toInt32 ≠ 0) :
    (vex.onSignallingAllThreadsOnObject manager objectId).2 =
      (vex.interruptEveryNext objectId (records vex objectId.toInt32).length).2 := by
  unfold onSignallingAllThreadsOnObject
  rw [getNext_eq_findNext,if_neg found]
  rfl

theorem broadcast_none (manager : Nat) (objectId : Int64)
    (none : vex.waitingOnObjectRegistry.findNext objectId.toInt32 = 0) :
    (vex.onSignallingAllThreadsOnObject manager objectId).2 = vex.increasePendingNotifications manager := by
  unfold onSignallingAllThreadsOnObject
  rw [getNext_eq_findNext,if_pos none]

/-! ## The records of a run -/

theorem release_subset (lockId : Int64) (key : Int32) :
    records (vex.onLocklessReleasingLock locking t lockId) key ⊆ records vex key := by
  unfold onLocklessReleasingLock
  dsimp only
  split
  · exact interrupt_subset _ key
  · exact List.Subset.refl _

theorem continue_subset {manager : Nat} {leapIsValid : Bool} (key : Int32)
    (continued : vex.continueThread t manager leapIsValid = some next) : records next key ⊆ records vex key := by
  unfold continueThread at continued
  cases found : vex.threadRegistry t with
  | none => simp [found] at continued
  | some thread =>
    simp only [found] at continued
    split_ifs at continued
    · unfold records
      rw [resumeThread_records continued]
      exact List.Subset.refl _
    · cases continued
      exact List.Subset.refl _
    · unfold interruptTimedWaitingThread at continued
      split_ifs at continued
      · have subset : records ((vex.popRunnable t).onAnyReplacedWaitingInterrupt t) key ⊆ _ := interrupt_subset t key
        unfold records at subset ⊢
        rw [resumeThread_records continued]
        exact subset
      · cases continued
        exact List.Subset.refl _
    · cases continued
      exact List.Subset.refl _

/-- A record that a step adds is that of a registration. -/
theorem recorded_step {event : Event} {key : Int32} (stepped : vex.step locking event = some next)
    (member : x ∈ records next key) : x ∈ records vex key ∨ ∃ objectId updateLockRegistry,
      event = .register x objectId updateLockRegistry ∧ objectId.toInt32 = key := by
  by_cases quiet : event.writesRecords = false
  · unfold records at member ⊢
    rw [step_records stepped quiet] at member
    exact .inl member
  · cases event with
    | register t objectId updateLockRegistry =>
      obtain ⟨thread,-,rfl⟩ := Option.map_eq_some_iff.mp stepped
      have inserted : x ∈ records (vex.setRegistry (vex.waitingOnObjectRegistry.insert objectId.toInt32 t)) key := by
        unfold beforeReleasingLockOfAnyReplacedWaiting at member
        dsimp only at member
        split_ifs at member
        · exact release_subset objectId key member
        · exact member
      rw [records,setRegistry_records,ObjectRegistry.threadsWaiting_insert] at inserted
      split_ifs at inserted with same
      · rw [List.mem_append,List.mem_singleton] at inserted
        obtain recorded | rfl := inserted
        · exact .inl (same ▸ recorded)
        · exact .inr ⟨objectId,updateLockRegistry,rfl,same.symm⟩
      · exact .inl inserted
    | signal manager objectId =>
      cases stepped
      by_cases found : vex.waitingOnObjectRegistry.findNext objectId.toInt32 = 0
      · rw [signal_none manager objectId found] at member
        exact .inl member
      · rw [signal_eq manager objectId found] at member
        exact .inl (interruptThread_subset _ false key member)
    | broadcast manager objectId =>
      cases stepped
      by_cases found : vex.waitingOnObjectRegistry.findNext objectId.toInt32 = 0
      · rw [broadcast_none manager objectId found] at member
        exact .inl member
      · rw [broadcast_eq manager objectId found] at member
        exact .inl (broadcast_subset objectId _ key member)
    | interrupt t =>
      cases stepped
      exact .inl (interruptThread_subset t true key member)
    | releaseLock t lockId =>
      obtain ⟨thread,-,rfl⟩ := Option.map_eq_some_iff.mp stepped
      exact .inl (release_subset lockId key member)
    | continueThread manager t leapIsValid => exact .inl (continue_subset key stepped member)
    | _ => exact absurd rfl quiet

/-- Every record of a run is that of a registration in it. -/
theorem recorded_run {events : List Event} {key : Int32} (executed : run (Vex.step locking) vex events = some next)
    (member : x ∈ records next key) : x ∈ records vex key ∨ ∃ objectId updateLockRegistry,
      .register x objectId updateLockRegistry ∈ events ∧ objectId.toInt32 = key := by
  induction events generalizing vex with
  | nil =>
    cases executed
    exact .inl member
  | cons event rest ih =>
    obtain ⟨middle,stepped,remaining⟩ := (run_cons vex event rest next).mp executed
    obtain earlier | ⟨objectId,updateLockRegistry,later,same⟩ := ih remaining
    · obtain recorded | ⟨objectId,updateLockRegistry,rfl,same⟩ := recorded_step stepped earlier
      · exact .inl recorded
      · exact .inr ⟨objectId,updateLockRegistry,List.mem_cons_self,same⟩
    · exact .inr ⟨objectId,updateLockRegistry,List.mem_cons_of_mem event later,same⟩

/-! ## The identifier zero -/

/-- Zero, which stands for no thread, is never registered or recorded. -/
structure Named (vex : Vex Locks) : Prop where
  unregistered : vex.threadRegistry 0 = none
  unrecorded : ∀ key, 0 ∉ records vex key

private theorem unregistered_robust : Robust 0 fun vex : Vex Locks => vex.threadRegistry 0 = none where
  kept := fun keeps absent => keeps.thread.trans absent
  interrupted := fun absent => by rwa [interrupt_absent absent]
  flagged := fun timedOut absent => by simp [onState,onThread,absent]

theorem named_step {event : Event} (named : Named vex) (stepped : vex.step locking event = some next) : Named next := by
  have absent := named.unregistered
  constructor
  · by_cases zero : event.thread = some 0
    · cases event with
      | spawn t manager timedWaitingObjectId suspends =>
        cases zero
        simp [step] at stepped
      | signal manager objectId => cases zero
      | broadcast manager objectId => cases zero
      | interrupt t =>
        cases zero
        simp only [step,interruptThread,absent] at stepped
        cases stepped
        exact absent
      | unpark t =>
        cases zero
        simp only [step,absent] at stepped
        cases stepped
        exact absent
      | _ =>
        cases zero
        simp [step,actor,absent,continueThread] at stepped
    · exact unregistered_robust.step absent zero stepped
  · intro key member
    obtain recorded | ⟨objectId,updateLockRegistry,rfl,-⟩ := recorded_step stepped member
    · exact named.unrecorded key recorded
    · simp [step,actor,absent] at stepped

theorem named_start (locks : Locks) : Named (Vex.start locks) := ⟨rfl,fun _ => List.not_mem_nil⟩

theorem named_run {events : List Event} (named : Named vex) (executed : run (Vex.step locking) vex events = some next) :
    Named next := invariant (fun _ _ _ holds stepped => named_step holds stepped) named executed

end Vexjine.Signals
