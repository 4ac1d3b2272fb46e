import Vexjine.Leaping
import Vexjine.Runs

/-!
# The sum that stands for progress

Between two decisions to leap, `ThreadManager::isValidToLeapInVirtualTimeTo` takes the registry's summed times
for a sign of progress. A step of the threads is one call of a method that changes a clock or the state of a
thread, or a registration or its end, after which the hash map may enumerate its threads in another order.
-/

namespace Vexjine.ProgressSums
open Vexjine.VirtualTimeline (longLong LLONG_MAX)
open Vexjine.Leaping (Registered ThreadRegistry)
open Vexjine.Runs
set_option linter.unusedSectionVars false

/-- The methods that change what is summed. Times that are scaled by the speedup are given as they are added. -/
inductive Change
  | setEstimatedRealTime (estimatedRealTime : Int)
  | leapTo (time : Int)
  | addElapsedTime (time : Int)
  | addLocalTime (timeAdded : Int)
  | updateTimesBeforeWaitingWithTimeout (timeout : Int64) (timeAdded : Int)
  | rollbackFromTimeOutValue
  | setLocalTime (newTime : Int)
  | getAndResetLocalTime
  | setState (currentState : Code)
  | updateIoCPUTimeTo (startingTime lastCPUTime : Int)
  deriving DecidableEq

def Change.apply (thread : Registered) : Change → Registered
  | .setEstimatedRealTime estimatedRealTime => { thread with estimatedRealTime }
  | .leapTo time =>
    if thread.estimatedRealTime < time then { thread with estimatedRealTime := time } else thread
  | .addElapsedTime time => { thread with estimatedRealTime := longLong (thread.estimatedRealTime + time) }
  | .addLocalTime timeAdded => { thread with
      estimatedRealTime := longLong (thread.estimatedRealTime + timeAdded)
      localTime := longLong (thread.localTime + timeAdded) }
  | .updateTimesBeforeWaitingWithTimeout timeout timeAdded => { thread with
      estimatedRealTime := longLong (thread.estimatedRealTime + timeAdded)
      timeout }
  | .rollbackFromTimeOutValue => { thread with
      estimatedRealTime := longLong (thread.estimatedRealTime - thread.timeout.toInt)
      timeout := -1 }
  | .setLocalTime newTime => { thread with localTime := newTime }
  | .getAndResetLocalTime => { thread with localTime := 0 }
  | .setState currentState => { thread with currentState }
  | .updateIoCPUTimeTo startingTime lastCPUTime => { thread with ioCPUTime := longLong (startingTime - lastCPUTime) }

/-- The index in its order of enumeration, and the threads, registered or not. -/
structure State (Thread : Type) where
  threadStateIndex : List Thread
  threads : Thread → Registered

inductive Event (Thread : Type)
  | change (t : Thread) (change : Change)
  | add (t : Thread) (enumeration : List Thread)
  | remove (t : Thread) (enumeration : List Thread)
  deriving DecidableEq

variable {Thread : Type} [DecidableEq Thread]

namespace State
variable (state : State Thread)

/-- The registry as a sample reads it. -/
def registry : ThreadRegistry where
  threadStateIndex := state.threadStateIndex.map state.threads
  threadsBeingSpawned := 0
  forwardLeapsAllowed := true

def getSummedErtOfAllThreads : Int := state.registry.getSummedErtOfAllThreads

end State

def step (state : State Thread) : Event Thread → Option (State Thread)
  | .change t change => some { state with threads := Function.update state.threads t (change.apply (state.threads t)) }
  | .add t enumeration =>
    if t ∉ state.threadStateIndex ∧ enumeration.Perm (t :: state.threadStateIndex) then
      some { state with threadStateIndex := enumeration }
    else none
  | .remove t enumeration =>
    if state.threadStateIndex.Perm (t :: enumeration) then some { state with threadStateIndex := enumeration } else none

/-! ## The law -/

/-- What a sample would have to notice. -/
structure SameClocks (first second : Registered) : Prop where
  estimatedRealTime : first.estimatedRealTime = second.estimatedRealTime
  localTime : first.localTime = second.localTime
  currentState : first.currentState = second.currentState
  ioCPUTime : first.ioCPUTime = second.ioCPUTime

/-- No registered thread's clock or state has changed in any state of the run. -/
def Unchanged (state : State Thread) (events : List (Event Thread)) : Prop :=
  ∀ before after middle, events = before ++ after → run step state before = some middle →
    ∀ t ∈ state.threadStateIndex, SameClocks (state.threads t) (middle.threads t)

/-- Local and I/O times are not negative. -/
structure Nonneg (thread : Registered) : Prop where
  localTime : 0 ≤ thread.localTime
  ioCPUTime : 0 ≤ thread.ioCPUTime

def IsLongLong (value : Int) : Prop := -2 ^ 63 ≤ value ∧ value ≤ LLONG_MAX

/-- A run time is past the one of the first sample by more than all else that could have fallen since. -/
def Ahead (sampled : Registered) (estimatedRealTime : Int) : Prop :=
  sampled.localTime + sampled.currentState.number + sampled.ioCPUTime < estimatedRealTime - sampled.estimatedRealTime

/-- Times are added forwards. Run times go back, local times are committed, states with smaller numbers are entered
    and I/O times fall only where the thread's run time is ahead. -/
def Change.Progresses (sampled thread : Registered) : Change → Prop
  | .setEstimatedRealTime estimatedRealTime =>
    thread.estimatedRealTime ≤ estimatedRealTime ∨ Ahead sampled estimatedRealTime
  | .leapTo _ => True
  | .addElapsedTime time | .updateTimesBeforeWaitingWithTimeout _ time =>
    0 ≤ time ∧ IsLongLong (thread.estimatedRealTime + time)
  | .addLocalTime timeAdded =>
    0 ≤ timeAdded ∧ IsLongLong (thread.estimatedRealTime + timeAdded) ∧ IsLongLong (thread.localTime + timeAdded)
  | .rollbackFromTimeOutValue => IsLongLong (thread.estimatedRealTime - thread.timeout.toInt) ∧
      (thread.timeout.toInt ≤ 0 ∨ Ahead sampled (thread.estimatedRealTime - thread.timeout.toInt))
  | .setLocalTime newTime => thread.localTime ≤ newTime ∨ 0 ≤ newTime ∧ Ahead sampled thread.estimatedRealTime
  | .getAndResetLocalTime => thread.localTime = 0 ∨ Ahead sampled thread.estimatedRealTime
  | .setState currentState =>
    thread.currentState.number ≤ currentState.number ∨ Ahead sampled thread.estimatedRealTime
  | .updateIoCPUTimeTo startingTime lastCPUTime => IsLongLong (startingTime - lastCPUTime) ∧
      (thread.ioCPUTime ≤ startingTime - lastCPUTime ∨
        lastCPUTime ≤ startingTime ∧ Ahead sampled thread.estimatedRealTime)

instance (value : Int) : Decidable (IsLongLong value) := inferInstanceAs (Decidable (_ ∧ _))

instance (sampled : Registered) (estimatedRealTime : Int) : Decidable (Ahead sampled estimatedRealTime) :=
  inferInstanceAs (Decidable (_ < _))

instance (sampled thread : Registered) : (change : Change) → Decidable (change.Progresses sampled thread)
  | .leapTo _ => .isTrue trivial
  | .setEstimatedRealTime _ | .setLocalTime _ | .getAndResetLocalTime | .setState _ => inferInstanceAs (Decidable (_ ∨ _))
  | .addElapsedTime _ | .updateTimesBeforeWaitingWithTimeout _ _ | .addLocalTime _ | .rollbackFromTimeOutValue
  | .updateIoCPUTimeTo _ _ => inferInstanceAs (Decidable (_ ∧ _))

/-- The calls on the threads that the first sample found are such. -/
def Progresses (sampled state : State Thread) : Event Thread → Prop
  | .change t change => t ∈ sampled.threadStateIndex → change.Progresses (sampled.threads t) (state.threads t)
  | .add .. | .remove .. => True

instance (sampled state : State Thread) : (event : Event Thread) → Decidable (Progresses sampled state event)
  | .change t change => inferInstanceAs (Decidable (t ∈ sampled.threadStateIndex →
      change.Progresses (sampled.threads t) (state.threads t)))
  | .add .. | .remove .. => .isTrue trivial

/-- What a thread adds to the sum. -/
def share (thread : Registered) : Int :=
  thread.estimatedRealTime + thread.localTime + thread.currentState.number + thread.ioCPUTime

/-- The sum of all shares fits a `long long`. -/
def Fits (state : State Thread) : Prop :=
  -2 ^ 63 ≤ (state.threadStateIndex.map fun t => share (state.threads t)).sum ∧
    (state.threadStateIndex.map fun t => share (state.threads t)).sum < 2 ^ 63

/-! ## Sums -/

private theorem summed_from (threads : List Registered) (total : Int) :
    threads.foldl (fun totalErt thread => longLong (totalErt + longLong
      (thread.estimatedRealTime + thread.localTime + thread.currentState.number + thread.ioCPUTime))) (longLong total) =
      longLong (total + (threads.map share).sum) := by
  induction threads generalizing total with
  | nil => simp
  | cons thread rest ih =>
    have added : longLong (longLong total + longLong (share thread)) = longLong (total + share thread) := by
      unfold longLong
      simp
    rw [List.foldl_cons]
    show rest.foldl _ (longLong (longLong total + longLong (share thread))) = _
    rw [added,ih,List.map_cons,List.sum_cons,Int.add_assoc]

private theorem getSummedErtOfAllThreads_eq {state : State Thread} (fits : Fits state) :
    state.getSummedErtOfAllThreads = (state.threadStateIndex.map fun t => share (state.threads t)).sum := by
  have from_zero := summed_from (state.threadStateIndex.map state.threads) 0
  rw [List.map_map,Int.zero_add] at from_zero
  obtain ⟨lower,upper⟩ := fits
  have exact_ : longLong (state.threadStateIndex.map fun t => share (state.threads t)).sum =
      (state.threadStateIndex.map fun t => share (state.threads t)).sum := by
    unfold longLong
    rw [Int.bmod_eq_of_le (by omega) (by omega)]
  exact from_zero.trans exact_

/-- Where no entry falls, equal sums have equal entries. -/
private theorem eq_of_sum_eq {Index : Type} {indices : List Index} {before after : Index → Int}
    (grows : ∀ index ∈ indices, before index ≤ after index)
    (equal : (indices.map before).sum = (indices.map after).sum) : ∀ index ∈ indices, before index = after index := by
  induction indices with
  | nil =>
    intro index member
    cases member
  | cons first rest ih =>
    rw [List.map_cons,List.map_cons,List.sum_cons,List.sum_cons] at equal
    have head := grows first List.mem_cons_self
    have others : ∀ index ∈ rest, before index ≤ after index :=
      fun index member => grows index (List.mem_cons_of_mem first member)
    have tail : (rest.map before).sum ≤ (rest.map after).sum := List.sum_le_sum others
    intro index member
    rcases List.mem_cons.mp member with rfl | inRest
    · omega
    · exact ih others (by omega) index inRest

/-! ## Runs -/

theorem SameClocks.rfl {thread : Registered} : SameClocks thread thread := ⟨Eq.refl _,Eq.refl _,Eq.refl _,Eq.refl _⟩

theorem SameClocks.trans {first second third : Registered} (one : SameClocks first second) (two : SameClocks second third) :
    SameClocks first third :=
  ⟨one.estimatedRealTime.trans two.estimatedRealTime,one.localTime.trans two.localTime,
    one.currentState.trans two.currentState,one.ioCPUTime.trans two.ioCPUTime⟩

/-- The clocks are the same, or the share has grown. -/
def Grown (first second : Registered) : Prop := SameClocks first second ∨ share first < share second

private theorem share_le_of_grown {first second : Registered} (grown : Grown first second) : share first ≤ share second := by
  rcases grown with same | more
  · unfold share
    rw [same.estimatedRealTime,same.localTime,same.currentState,same.ioCPUTime]
  · omega

private theorem grown_trans {first second third : Registered} (one : Grown first second) (two : Grown second third) :
    Grown first third := by
  have le_one := share_le_of_grown one
  have le_two := share_le_of_grown two
  rcases one with same | more
  · rcases two with sameToo | moreToo
    · exact .inl (same.trans sameToo)
    · exact .inr (by omega)
  · exact .inr (by omega)

private theorem number_nonneg (code : Code) : 0 ≤ code.number := by
  cases code <;> decide

private theorem number_injective {first second : Code} (same : first.number = second.number) : first = second := by
  cases first <;> cases second <;> first | rfl | exact absurd same (by decide)

private theorem longLong_of_isLongLong {value : Int} (fits : IsLongLong value) : longLong value = value := by
  obtain ⟨low,high⟩ := fits
  unfold longLong LLONG_MAX at *
  rw [Int.bmod_def]
  omega

/-- A thread whose run time is ahead has a greater share, whatever else of it has fallen. -/
private theorem share_of_ahead {sampled thread : Registered} (nonneg : Nonneg thread)
    (ahead : Ahead sampled thread.estimatedRealTime) : share sampled < share thread := by
  have number := number_nonneg thread.currentState
  have localTime := nonneg.localTime
  have ioCPUTime := nonneg.ioCPUTime
  unfold Ahead at ahead
  unfold share
  omega

/-- A clock or the state's number has risen, and the rest is the same; or nothing has changed. -/
private theorem grown_of_le {first second : Registered} (run : first.estimatedRealTime ≤ second.estimatedRealTime)
    (since : first.localTime ≤ second.localTime) (code : first.currentState.number ≤ second.currentState.number)
    (io : first.ioCPUTime ≤ second.ioCPUTime) : Grown first second := by
  by_cases more : share first < share second
  · exact .inr more
  · unfold share at more
    have sameCode : first.currentState = second.currentState := number_injective (by omega)
    exact .inl ⟨by omega,by omega,sameCode,by omega⟩

/-- One call keeps the signs, and either nothing of the thread falls or its share is greater than at the sample. -/
private theorem apply_progresses {sampled thread : Registered} {change : Change} (nonneg : Nonneg thread)
    (progresses : change.Progresses sampled thread) : Nonneg (change.apply thread) ∧
      (Grown thread (change.apply thread) ∨ share sampled < share (change.apply thread)) := by
  cases change with
  | setEstimatedRealTime time =>
    have signs : Nonneg ((Change.setEstimatedRealTime time).apply thread) := ⟨nonneg.localTime,nonneg.ioCPUTime⟩
    refine ⟨signs,?_⟩
    rcases progresses with later | ahead
    · exact .inl (grown_of_le later le_rfl le_rfl le_rfl)
    · exact .inr (share_of_ahead signs ahead)
  | leapTo time =>
    by_cases later : thread.estimatedRealTime < time
    · rw [Change.apply,if_pos later]
      exact ⟨⟨nonneg.localTime,nonneg.ioCPUTime⟩,.inl (grown_of_le later.le le_rfl le_rfl le_rfl)⟩
    · rw [Change.apply,if_neg later]
      exact ⟨nonneg,.inl (.inl .rfl)⟩
  | addElapsedTime time | updateTimesBeforeWaitingWithTimeout timeout time =>
    obtain ⟨forwards,fits⟩ := progresses
    simp only [Change.apply,longLong_of_isLongLong fits]
    exact ⟨⟨nonneg.localTime,nonneg.ioCPUTime⟩,.inl (grown_of_le (by simp only; omega) le_rfl le_rfl le_rfl)⟩
  | addLocalTime timeAdded =>
    obtain ⟨forwards,fits,fitsToo⟩ := progresses
    have localTime := nonneg.localTime
    simp only [Change.apply,longLong_of_isLongLong fits,longLong_of_isLongLong fitsToo]
    exact ⟨⟨by simp only; omega,nonneg.ioCPUTime⟩,
      .inl (grown_of_le (by simp only; omega) (by simp only; omega) le_rfl le_rfl)⟩
  | rollbackFromTimeOutValue =>
    obtain ⟨fits,backwards⟩ := progresses
    simp only [Change.apply,longLong_of_isLongLong fits]
    have signs : Nonneg { thread with
        estimatedRealTime := thread.estimatedRealTime - thread.timeout.toInt,timeout := -1 } :=
      ⟨nonneg.localTime,nonneg.ioCPUTime⟩
    refine ⟨signs,?_⟩
    rcases backwards with none | ahead
    · exact .inl (grown_of_le (by simp only; omega) le_rfl le_rfl le_rfl)
    · exact .inr (share_of_ahead signs ahead)
  | setLocalTime newTime =>
    have localTime := nonneg.localTime
    rcases progresses with more | ⟨positive,ahead⟩
    · exact ⟨⟨localTime.trans more,nonneg.ioCPUTime⟩,.inl (grown_of_le le_rfl more le_rfl le_rfl)⟩
    · have signs : Nonneg ((Change.setLocalTime newTime).apply thread) := ⟨positive,nonneg.ioCPUTime⟩
      exact ⟨signs,.inr (share_of_ahead signs ahead)⟩
  | getAndResetLocalTime =>
    have signs : Nonneg (Change.getAndResetLocalTime.apply thread) := ⟨le_rfl,nonneg.ioCPUTime⟩
    refine ⟨signs,?_⟩
    rcases progresses with none | ahead
    · exact .inl (grown_of_le le_rfl none.le le_rfl le_rfl)
    · exact .inr (share_of_ahead signs ahead)
  | setState currentState =>
    have signs : Nonneg ((Change.setState currentState).apply thread) := ⟨nonneg.localTime,nonneg.ioCPUTime⟩
    refine ⟨signs,?_⟩
    rcases progresses with greater | ahead
    · exact .inl (grown_of_le le_rfl le_rfl greater le_rfl)
    · exact .inr (share_of_ahead signs ahead)
  | updateIoCPUTimeTo startingTime lastCPUTime =>
    obtain ⟨fits,rest⟩ := progresses
    have ioCPUTime := nonneg.ioCPUTime
    simp only [Change.apply,longLong_of_isLongLong fits]
    rcases rest with more | ⟨positive,ahead⟩
    · exact ⟨⟨nonneg.localTime,ioCPUTime.trans more⟩,.inl (grown_of_le le_rfl le_rfl le_rfl more)⟩
    · have signs : Nonneg { thread with ioCPUTime := startingTime - lastCPUTime } :=
        ⟨nonneg.localTime,by simp only; omega⟩
      exact ⟨signs,.inr (share_of_ahead signs ahead)⟩

private theorem step_progresses {sampled state next : State Thread} {event : Event Thread} {t : Thread}
    (registered : t ∈ sampled.threadStateIndex) (nonneg : Nonneg (state.threads t)) (progresses : Progresses sampled state event)
    (stepped : step state event = some next) : Nonneg (next.threads t) ∧
      (Grown (state.threads t) (next.threads t) ∨ share (sampled.threads t) < share (next.threads t)) := by
  cases event with
  | change own change =>
    cases stepped
    by_cases same : t = own
    · subst same
      simpa using apply_progresses nonneg (progresses registered)
    · simpa [Function.update_of_ne same] using ⟨nonneg,.inl (.inl .rfl)⟩
  | add own enumeration =>
    simp only [step,Option.ite_none_right_eq_some,Option.some.injEq] at stepped
    obtain ⟨-,rfl⟩ := stepped
    exact ⟨nonneg,.inl (.inl .rfl)⟩
  | remove own enumeration =>
    simp only [step,Option.ite_none_right_eq_some,Option.some.injEq] at stepped
    obtain ⟨-,rfl⟩ := stepped
    exact ⟨nonneg,.inl (.inl .rfl)⟩

section Samples
variable {sampled state last : State Thread} {events : List (Event Thread)} {t : Thread}

/-- Until a sample finds more of it, nothing of a thread has changed. -/
private theorem run_grown (registered : t ∈ sampled.threadStateIndex) (nonneg : Nonneg (sampled.threads t))
    (progresses : Meets step (Progresses sampled) sampled events) (executed : run step sampled events = some last) :
    Nonneg (last.threads t) ∧ Grown (sampled.threads t) (last.threads t) := by
  let Kept (state : State Thread) : Prop := Nonneg (state.threads t) ∧ Grown (sampled.threads t) (state.threads t)
  have started : Kept sampled := ⟨nonneg,.inl .rfl⟩
  have kept : ∀ state event next, Kept state → Progresses sampled state event → step state event = some next → Kept next := by
    rintro state event next ⟨signs,grown⟩ progresses stepped
    obtain ⟨nextSigns,more⟩ := step_progresses registered signs progresses stepped
    exact ⟨nextSigns,more.elim (grown_trans grown) .inr⟩
  exact invariant_of_meets kept started progresses executed

/-- What the thread has gained at one time is not lost. -/
private theorem run_above (registered : t ∈ sampled.threadStateIndex) (nonneg : Nonneg (state.threads t))
    (above : share (sampled.threads t) < share (state.threads t)) (progresses : Meets step (Progresses sampled) state events)
    (executed : run step state events = some last) : share (sampled.threads t) < share (last.threads t) := by
  let Kept (state : State Thread) : Prop :=
    Nonneg (state.threads t) ∧ share (sampled.threads t) < share (state.threads t)
  have started : Kept state := ⟨nonneg,above⟩
  have kept : ∀ state event next, Kept state → Progresses sampled state event → step state event = some next → Kept next := by
    rintro state event next ⟨signs,above⟩ progresses stepped
    obtain ⟨nextSigns,more⟩ := step_progresses registered signs progresses stepped
    refine ⟨nextSigns,?_⟩
    rcases more with grown | greater
    · exact above.trans_le (share_le_of_grown grown)
    · exact greater
  exact (invariant_of_meets kept started progresses executed).2

/-- Between two samples of the same threads, whose calls are such and whose sums fit, the sums are equal if and only if
    no clock and no state of theirs has changed in any state between them. -/
theorem sums_equal_iff_unchanged (nonneg : ∀ t ∈ sampled.threadStateIndex, Nonneg (sampled.threads t))
    (progresses : Meets step (Progresses sampled) sampled events) (executed : run step sampled events = some last)
    (same : last.threadStateIndex.Perm sampled.threadStateIndex) (fits : Fits sampled) (fitsToo : Fits last) :
    sampled.getSummedErtOfAllThreads = last.getSummedErtOfAllThreads ↔ Unchanged sampled events := by
  have sumOfLast : (last.threadStateIndex.map fun t => share (last.threads t)).sum =
      (sampled.threadStateIndex.map fun t => share (last.threads t)).sum := (same.map fun t => share (last.threads t)).sum_eq
  rw [getSummedErtOfAllThreads_eq fits,getSummedErtOfAllThreads_eq fitsToo,sumOfLast]
  have grown : ∀ t ∈ sampled.threadStateIndex, share (sampled.threads t) ≤ share (last.threads t) :=
    fun t registered => share_le_of_grown (run_grown registered (nonneg t registered) progresses executed).2
  constructor
  · intro equal before after middle split reached t registered
    have shares := eq_of_sum_eq grown equal t registered
    rw [split] at progresses executed
    obtain ⟨signs,grownToMiddle⟩ := run_grown registered (nonneg t registered) (meets_of_earlier progresses) reached
    rcases grownToMiddle with unchanged | more
    · exact unchanged
    · obtain ⟨between,first,second⟩ := (run_append sampled before after last).mp executed
      rw [reached,Option.some.injEq] at first
      subst first
      have kept := run_above registered signs more (meets_of_append progresses reached) second
      omega
  · intro unchanged
    have ends := unchanged events [] last (List.append_nil _).symm executed
    congr 1
    refine List.map_congr_left fun t registered => ?_
    obtain ⟨run,since,code,io⟩ := ends t registered
    rw [share,share,run,since,code,io]

end Samples

private def runningAt (estimatedRealTime localTime : Int) : Registered where
  toVexThreadState := { VexThreadState.init 0 with currentState := .running }
  estimatedRealTime := estimatedRealTime
  localTime := localTime
  ioCPUTime := 0
  executingPossiblyBlockingIo := false
  threadSystemStateBlocked := true

/-- A thread that was just resumed, and one that has 500 ns to commit. -/
private def runners : State Bool where
  threadStateIndex := [false,true]
  threads := fun t => if t then runningAt 1500 500 else runningAt 1000 0

/-- The first thread runs and is suspended, the second one leaps forward, commits its local time and is resumed after
    a suspension. -/
private def bothProgress : List (Event Bool) :=
  [.change false (.addLocalTime 250),.change true (.setState .suspended),.change true (.leapTo 2600),
    .change false (.setState .suspended),.change true .getAndResetLocalTime,.change true (.setState .running)]

/-- Both threads have changed, and the sums tell. -/
theorem both_progress_noticed : ∃ last, run step runners bothProgress = some last ∧
    last.threadStateIndex.Perm runners.threadStateIndex ∧ (∀ t, ¬ SameClocks (runners.threads t) (last.threads t)) ∧
    runners.getSummedErtOfAllThreads ≠ last.getSummedErtOfAllThreads := by
  refine ⟨_,rfl,.refl _,?_,?_⟩
  · intro t same
    cases t with
    | false => exact absurd same.localTime (by decide)
    | true => exact absurd same.localTime (by decide)
  · intro equal
    have nonneg : ∀ t ∈ runners.threadStateIndex, Nonneg (runners.threads t) := by
      intro t _
      cases t <;> exact ⟨by decide,by decide⟩
    have progresses : Meets step (Progresses runners) runners bothProgress := by decide
    have fits : Fits runners := ⟨by decide,by decide⟩
    have unchanged := (sums_equal_iff_unchanged nonneg progresses rfl (.refl _) fits ⟨by decide,by decide⟩).mp equal
    have same := unchanged bothProgress [] _ (List.append_nil _).symm rfl false (by decide)
    exact absurd same.localTime (by decide)

/-- One thread runs for 250 ns, which raises two of its clocks, while the other commits its local time. -/
theorem progress_cancels : ∃ last, run step runners
    [.change false (.addLocalTime 250),.change true .getAndResetLocalTime] = some last ∧
      last.threadStateIndex = runners.threadStateIndex ∧
      runners.getSummedErtOfAllThreads = last.getSummedErtOfAllThreads ∧
      ∀ t, ¬ SameClocks (runners.threads t) (last.threads t) := by
  refine ⟨_,rfl,rfl,by decide,?_⟩
  intro t same
  cases t with
  | false => exact absurd same.localTime (by decide)
  | true => exact absurd same.localTime (by decide)

end Vexjine.ProgressSums
