import Vexjine.ThreadRegistry

/-!
# Starting threads

The counter of the threads that are being spawned, over any run of the registry,
and the registration of an announced thread at its start.
-/

namespace Vexjine.ThreadRegistry
set_option linter.unusedSimpArgs false
set_option linter.unusedSectionVars false

variable {Thread Slot : Type} [DecidableEq Thread] [DecidableEq Slot]

/-- The thread that the step announces. -/
def Event.announces : Event Thread Slot → Option Int64
  | .beforeCreatingThread _ threadId | .onThreadMainStart _ threadId => some threadId
  | _ => none

/-- The thread that counts itself off, as it registers or is excluded. -/
def countsOff (excludedThreadsList : List String) (state : State Thread Slot) : Event Thread Slot → Option Int64
  | .checkThread _ threadId threadName =>
    if isThreadInExcludedThreadNamesList excludedThreadsList threadName then some threadId else none
  | .add t => some (state.threads t).uniqueId
  | _ => none

/-! ## The counter -/

/-- The counter is the number of announced threads that have neither registered nor been excluded. -/
def CountsUnborn (state : State Thread Slot) : Prop := state.threadsBeingSpawned = state.unborn.length

/-- No thread is announced while its announcement is pending, and what counts itself off has a pending
    announcement, unless no thread at all is being spawned. -/
structure Announced (excludedThreadsList : List String) (state : State Thread Slot) (event : Event Thread Slot) : Prop where
  once : ∀ threadId ∈ event.announces, threadId ∉ state.unborn
  pending : ∀ threadId ∈ countsOff excludedThreadsList state event,
    threadId ∈ state.unborn ∨ state.threadsBeingSpawned = 0

instance (excludedThreadsList : List String) (state : State Thread Slot) (event : Event Thread Slot) :
    Decidable (Announced excludedThreadsList state event) :=
  have : Decidable (∀ threadId ∈ event.announces, threadId ∉ state.unborn) := Option.decidableForallMem _
  have : Decidable (∀ threadId ∈ countsOff excludedThreadsList state event,
    threadId ∈ state.unborn ∨ state.threadsBeingSpawned = 0) := Option.decidableForallMem _
  decidable_of_iff (_ ∧ _) ⟨fun both => ⟨both.1,both.2⟩,fun announced => ⟨announced.once,announced.pending⟩⟩

variable {excludedThreadsList : List String} {state next last : State Thread Slot} {event : Event Thread Slot}

/-- The announcements of the other threads are left alone. -/
private def KeepsOthers (state next : State Thread Slot) (threadId : Int64) : Prop :=
  ∀ otherId, otherId ≠ threadId → next.parentThreadIdsToTheirERTs otherId = state.parentThreadIdsToTheirERTs otherId

private theorem announcement_effect {parentThreadId threadId : Int64}
    (announced : state.newThreadBeingSpawned parentThreadId threadId = some next) :
    next.threadsBeingSpawned = state.threadsBeingSpawned + 1 ∧
      (next.unborn = if threadId ∈ state.unborn then state.unborn else threadId :: state.unborn) ∧
      KeepsOthers state next threadId := by
  unfold State.newThreadBeingSpawned at announced
  dsimp only at announced
  split at announced
  · cases announced
    exact ⟨rfl,rfl,fun _ other => Function.update_of_ne other _ _⟩
  · split at announced
    · cases announced
      exact ⟨rfl,rfl,fun _ other => Function.update_of_ne other _ _⟩
    · cases announced

/-- The counter, the announced threads and the announcements are left alone. -/
private def Unmoved (state next : State Thread Slot) : Prop :=
  next.threadsBeingSpawned = state.threadsBeingSpawned ∧ next.unborn = state.unborn ∧
    next.parentThreadIdsToTheirERTs = state.parentThreadIdsToTheirERTs

private theorem findOrConstruct_unmoved (t : Thread) (timeAdded : Nat) (suspends : Bool) :
    Unmoved state (state.findOrConstruct t timeAdded suspends) := by
  unfold State.findOrConstruct State.construct
  split
  · dsimp only
    split <;> exact ⟨rfl,rfl,rfl⟩
  · exact ⟨rfl,rfl,rfl⟩

private theorem coordinate_unmoved {t : Thread} {threadId : Int64}
    (coordinated : state.coordinateJoiningThreads t threadId = some next) : Unmoved state next := by
  unfold State.coordinateJoiningThreads at coordinated
  split at coordinated
  · cases coordinated
  · split at coordinated
    · split at coordinated <;> (cases coordinated; exact ⟨rfl,rfl,rfl⟩)
    · cases coordinated
      exact ⟨rfl,rfl,rfl⟩

private theorem remove_unmoved (t : Thread) : Unmoved state (state.remove t) := by
  unfold State.remove State.notifyParentWaitingForYouToJoin
  dsimp only
  split <;> exact ⟨rfl,rfl,rfl⟩

private theorem cleanup_unmoved (t : Thread) : Unmoved state (state.cleanup t) := by
  unfold State.cleanup
  dsimp only
  split <;> exact ⟨rfl,rfl,rfl⟩

private theorem check_effect (t : Thread) (threadId : Int64) (threadName : String) :
    if isThreadInExcludedThreadNamesList excludedThreadsList threadName = true then
      (state.checkThread excludedThreadsList t threadId threadName).threadsBeingSpawned = state.threadsBeingSpawned - 1 ∧
        (state.checkThread excludedThreadsList t threadId threadName).unborn = state.unborn.erase threadId ∧
        KeepsOthers state (state.checkThread excludedThreadsList t threadId threadName) threadId
    else Unmoved state (state.checkThread excludedThreadsList t threadId threadName) := by
  unfold State.checkThread
  split
  · exact ⟨rfl,rfl,fun _ _ => rfl⟩
  · split <;> exact ⟨rfl,rfl,rfl⟩

/-- A step announces a thread, or a thread counts itself off, or nothing of both. -/
private theorem step_effect (stepped : step excludedThreadsList state event = some next) :
    (∃ threadId, event.announces = some threadId ∧ countsOff excludedThreadsList state event = none ∧
      next.threadsBeingSpawned = state.threadsBeingSpawned + 1 ∧
      (next.unborn = if threadId ∈ state.unborn then state.unborn else threadId :: state.unborn) ∧
      KeepsOthers state next threadId) ∨
    (∃ threadId, event.announces = none ∧ countsOff excludedThreadsList state event = some threadId ∧
      next.threadsBeingSpawned = state.threadsBeingSpawned - 1 ∧ next.unborn = state.unborn.erase threadId ∧
      KeepsOthers state next threadId) ∨
    event.announces = none ∧ countsOff excludedThreadsList state event = none ∧ Unmoved state next := by
  cases event with
  | beforeCreatingThread t threadId | onThreadMainStart t threadId =>
    simp only [step,Option.ite_none_right_eq_some] at stepped
    exact .inl ⟨threadId,rfl,rfl,announcement_effect stepped.2⟩
  | checkThread t threadId threadName =>
    simp only [step,Option.ite_none_right_eq_some,Option.some.injEq] at stepped
    obtain ⟨-,rfl⟩ := stepped
    have effect := @check_effect _ _ _ _ excludedThreadsList state t threadId threadName
    split at effect
    · next excluded => exact .inr (.inl ⟨threadId,rfl,by simp [countsOff,excluded],effect⟩)
    · next included => exact .inr (.inr ⟨rfl,by simp [countsOff,included],effect⟩)
  | add t =>
    simp only [step,Option.ite_none_right_eq_some,Option.some.injEq] at stepped
    obtain ⟨-,rfl⟩ := stepped
    exact .inr (.inl ⟨_,rfl,rfl,rfl,rfl,fun _ other => Function.update_of_ne other _ _⟩)
  | findOrConstruct t timeAdded suspends =>
    simp only [step,Option.ite_none_right_eq_some,Option.some.injEq] at stepped
    obtain ⟨-,rfl⟩ := stepped
    exact .inr (.inr ⟨rfl,rfl,findOrConstruct_unmoved t timeAdded suspends⟩)
  | coordinateJoiningThreads t joiningThreadId =>
    simp only [step,Option.ite_none_right_eq_some] at stepped
    exact .inr (.inr ⟨rfl,rfl,coordinate_unmoved stepped.2⟩)
  | remove t =>
    simp only [step,Option.ite_none_right_eq_some,Option.some.injEq] at stepped
    obtain ⟨-,rfl⟩ := stepped
    exact .inr (.inr ⟨rfl,rfl,remove_unmoved t⟩)
  | cleanup t =>
    simp only [step,Option.ite_none_right_eq_some,Option.some.injEq] at stepped
    obtain ⟨-,rfl⟩ := stepped
    exact .inr (.inr ⟨rfl,rfl,cleanup_unmoved t⟩)
  | createThread t _ _ | setEstimatedRealTime t _ | onWrappedWaiting t | setDead t =>
    simp only [step,Option.ite_none_right_eq_some,Option.some.injEq] at stepped
    obtain ⟨-,rfl⟩ := stepped
    exact .inr (.inr ⟨rfl,rfl,rfl,rfl,rfl⟩)
  | exitThread t =>
    simp only [step,Option.ite_none_right_eq_some] at stepped
    obtain ⟨slot,-,rfl⟩ := Option.map_eq_some_iff.mp stepped.2
    exact .inr (.inr ⟨rfl,rfl,rfl,rfl,rfl⟩)

/-- A step keeps the count exactly where the threads that it announces and counts off are announced properly. -/
theorem step_counts_iff (counts : CountsUnborn state) (stepped : step excludedThreadsList state event = some next) :
    CountsUnborn next ↔ Announced excludedThreadsList state event := by
  unfold CountsUnborn at counts ⊢
  rcases step_effect stepped with ⟨threadId,announces,off,count,unborn,-⟩ | ⟨threadId,announces,off,count,unborn,-⟩ |
    ⟨announces,off,count,unborn,-⟩
  · have only : Announced excludedThreadsList state event ↔ threadId ∉ state.unborn :=
      ⟨fun announced => announced.once threadId announces,fun new => ⟨by simpa [announces] using new,by simp [off]⟩⟩
    rw [only,count,unborn,counts]
    by_cases twice : threadId ∈ state.unborn
    · simp [twice]
    · simp [twice]
  · have only : Announced excludedThreadsList state event ↔ threadId ∈ state.unborn ∨ state.threadsBeingSpawned = 0 :=
      ⟨fun announced => announced.pending threadId off,fun may => ⟨by simp [announces],by simpa [off] using may⟩⟩
    rw [only,count,unborn,counts]
    by_cases pending : threadId ∈ state.unborn
    · simp [pending,List.length_erase_of_mem pending]
    · rw [List.erase_of_not_mem pending]
      simp only [pending,false_or]
      omega
  · rw [count,unborn]
    exact ⟨fun _ => ⟨by simp [announces],by simp [off]⟩,fun _ => counts⟩

/-- The counter is right after every step of a run exactly if threads are announced properly in all of it; it
    then blocks leaps and joins exactly as long as an announced thread is unborn. -/
theorem spawn_counter_iff (excludedThreadsList : List String) (events : List (Event Thread Slot))
    (last : State Thread Slot) (executed : Runs.run (step excludedThreadsList) (initial Thread Slot) events = some last) :
    (Runs.Meets (step excludedThreadsList) (fun state event => ∀ next ∈ step excludedThreadsList state event, CountsUnborn next)
        (initial Thread Slot) events ↔
      Runs.Meets (step excludedThreadsList) (Announced excludedThreadsList) (initial Thread Slot) events) ∧
    (Runs.Meets (step excludedThreadsList) (Announced excludedThreadsList) (initial Thread Slot) events →
      (last.threadsBeingSpawned = 0 ↔ ∀ threadId, threadId ∉ last.unborn) ∧
      (last.atLeastOneThreadBeingSpawned = true ↔ ∃ threadId, threadId ∈ last.unborn) ∧
      ∀ t joiningThreadId, last.coordinateJoiningThreads t joiningThreadId = none ↔ ∃ threadId, threadId ∈ last.unborn) := by
  have start : CountsUnborn (initial Thread Slot) := rfl
  refine ⟨Runs.meets_law_iff (fun _ _ _ _ _ _ => trivial) (fun _ _ _ _ counts stepped => step_counts_iff counts stepped)
    trivial start executed,fun announced => ?_⟩
  have counts : CountsUnborn last := Runs.invariant_of_meets
    (fun _ _ _ counts proper stepped => (step_counts_iff counts stepped).mpr proper) start announced executed
  have zero : last.threadsBeingSpawned = 0 ↔ ∀ threadId, threadId ∉ last.unborn := by
    rw [counts,List.length_eq_zero_iff,List.eq_nil_iff_forall_not_mem]
  have positive : last.threadsBeingSpawned ≠ 0 ↔ ∃ threadId, threadId ∈ last.unborn := by
    rw [Ne,zero]
    exact not_forall_not
  refine ⟨zero,by simpa [State.atLeastOneThreadBeingSpawned] using positive,fun t joiningThreadId => ?_⟩
  rw [← positive]
  unfold State.coordinateJoiningThreads
  split
  · next spawning => exact ⟨fun _ => Nat.pos_iff_ne_zero.mp spawning,fun _ => rfl⟩
  · next idle =>
    refine ⟨fun refused => ?_,fun spawning => absurd (Nat.pos_of_ne_zero spawning) idle⟩
    split at refused
    · split at refused <;> cases refused
    · cases refused

/-- The main thread starts, and announces thread 7. -/
private def announcement : List (Event Nat Nat) :=
  [.createThread 0 0 100,.onThreadMainStart 0 1,.checkThread 0 1 "main",.findOrConstruct 0 0 false,.add 0,
    .beforeCreatingThread 0 7]

/-- Thread 7 starts, an excluded one, and one that nobody has announced. -/
private def mixedStarts : List (Event Nat Nat) :=
  announcement ++ [.beforeCreatingThread 0 8,.createThread 1 1 101,.createThread 2 2 102,.createThread 3 3 103,
    .checkThread 1 7 "worker",.checkThread 2 8 "Finalizer",.checkThread 3 9 "native",.findOrConstruct 1 0 false,.add 1]

/-- At the end no thread is unborn. -/
theorem spawn_counter_mixed : ∃ last : State Nat Nat,
    Runs.run (step ["Finalizer"]) (initial Nat Nat) mixedStarts = some last ∧ last.threadsBeingSpawned = 0 ∧
    ∀ threadId, threadId ∉ last.unborn := by
  have checked : (Runs.run (step ["Finalizer"]) (initial Nat Nat) mixedStarts).any
      (fun last => decide (last.threadsBeingSpawned = 0)) = true := by decide +kernel
  have announced : Runs.Meets (step ["Finalizer"]) (Announced ["Finalizer"]) (initial Nat Nat) mixedStarts := by
    decide +kernel
  obtain ⟨last,executed,zero⟩ := Runs.exists_of_checked checked
  have zero : last.threadsBeingSpawned = 0 := of_decide_eq_true zero
  exact ⟨last,executed,zero,((spawn_counter_iff ["Finalizer"] _ last executed).2 announced).1.mp zero⟩

/-- A thread with an excluded name that nobody has announced counts another one off; a thread that is announced
    twice is counted twice. -/
theorem spawn_counter_drifts : ¬ (∀ (events : List (Event Nat Nat)) last,
      Runs.run (step ["Finalizer"]) (initial Nat Nat) events = some last → CountsUnborn last) ∧
    ¬ ∀ (events : List (Event Nat Nat)) last,
      Runs.run (step []) (initial Nat Nat) events = some last → CountsUnborn last := by
  refine ⟨fun claimed => ?_,fun claimed => ?_⟩
  · have checked : (Runs.run (step ["Finalizer"]) (initial Nat Nat)
        (announcement ++ [.createThread 1 1 101,.checkThread 1 3 "Finalizer"])).any
        (fun last => decide (last.threadsBeingSpawned = 0 ∧ last.unborn = [7])) = true := by decide +kernel
    obtain ⟨last,executed,found⟩ := Runs.exists_of_checked checked
    obtain ⟨zero,one⟩ : last.threadsBeingSpawned = 0 ∧ last.unborn = [7] := of_decide_eq_true found
    have counts : last.threadsBeingSpawned = last.unborn.length := claimed _ last executed
    simp [zero,one] at counts
  · have checked : (Runs.run (step []) (initial Nat Nat) (announcement ++ [.beforeCreatingThread 0 7])).any
        (fun last => decide (last.threadsBeingSpawned = 2 ∧ last.unborn = [7])) = true := by decide +kernel
    obtain ⟨last,executed,found⟩ := Runs.exists_of_checked checked
    obtain ⟨two,one⟩ : last.threadsBeingSpawned = 2 ∧ last.unborn = [7] := of_decide_eq_true found
    have counts : last.threadsBeingSpawned = last.unborn.length := claimed _ last executed
    simp [two,one] at counts

/-! ## The registration -/

/-- The time of the parent, which the main thread does not have. -/
def parentTime (state : State Thread Slot) (parentThreadId : Int64) : Option Int :=
  match state.threadStateIndex parentThreadId with
  | some parent => some (state.threads parent).estimatedRealTime
  | none => if parentThreadId = 0 then some 0 else none

/-- The thread is registered under its id with the given time, its announcement is consumed, and nothing else
    is changed in the index or in the state of another thread. -/
structure Registers (state next : State Thread Slot) (t : Thread) (threadId : Int64) (time : Int) : Prop where
  indexed : next.threadStateIndex threadId = some t
  named : (next.threads t).uniqueId = threadId
  time : (next.threads t).estimatedRealTime = time
  consumed : next.parentThreadIdsToTheirERTs threadId = none
  others : ∀ other, other ≠ t → next.threads other = state.threads other
  index : ∀ otherId, otherId ≠ threadId → next.threadStateIndex otherId = state.threadStateIndex otherId

private theorem announced_time {parentThreadId threadId : Int64}
    (announced : state.newThreadBeingSpawned parentThreadId threadId = some next) :
    ∃ time, parentTime state parentThreadId = some time ∧ next.parentThreadIdsToTheirERTs threadId = some time := by
  unfold State.newThreadBeingSpawned at announced
  unfold parentTime
  cases found : state.threadStateIndex parentThreadId with
  | some parent =>
    simp only [found,Option.some.injEq] at announced
    subst announced
    exact ⟨_,rfl,Function.update_self ..⟩
  | none =>
    simp only [found,Option.ite_none_right_eq_some,Option.some.injEq] at announced
    obtain ⟨main,rfl⟩ := announced
    exact ⟨0,if_pos main,Function.update_self ..⟩

/-- An announcement stays until its thread counts itself off or is announced again. -/
private theorem step_announcement {threadId : Int64} (again : event.announces ≠ some threadId)
    (off : countsOff excludedThreadsList state event ≠ some threadId)
    (stepped : step excludedThreadsList state event = some next) :
    next.parentThreadIdsToTheirERTs threadId = state.parentThreadIdsToTheirERTs threadId := by
  rcases step_effect stepped with ⟨otherId,announces,-,-,-,keeps⟩ | ⟨otherId,-,counted,-,-,keeps⟩ | ⟨-,-,-,-,same⟩
  · exact keeps threadId fun same => again (same ▸ announces)
  · exact keeps threadId fun same => off (same ▸ counted)
  · rw [same]

private theorem run_announcement {threadId : Int64} {events : List (Event Thread Slot)}
    (leaves : Runs.Meets (step excludedThreadsList) (fun state event => event.announces ≠ some threadId ∧
      countsOff excludedThreadsList state event ≠ some threadId) state events)
    (executed : Runs.run (step excludedThreadsList) state events = some last) :
    last.parentThreadIdsToTheirERTs threadId = state.parentThreadIdsToTheirERTs threadId :=
  @Runs.invariant_of_meets _ _ (step excludedThreadsList) _
    (fun later => later.parentThreadIdsToTheirERTs threadId = state.parentThreadIdsToTheirERTs threadId)
    (fun _ _ _ kept leaves stepped => (step_announcement leaves.1 leaves.2 stepped).trans kept) _ _ _ rfl leaves executed

/-- The checks let an announced thread pass that is not excluded. -/
private theorem check_passes {t : Thread} {threadId : Int64} {threadName : String} {time : Int}
    (included : isThreadInExcludedThreadNamesList excludedThreadsList threadName = false)
    (pending : state.parentThreadIdsToTheirERTs threadId = some time) :
    state.checkThread excludedThreadsList t threadId threadName =
      state.onThread t fun thread => { thread with position := .checked,uniqueId := threadId,name := threadName } := by
  simp [State.checkThread,included,State.hasThreadParentRegisteredThisThread,pending]

/-- A thread whose id for the operating system is nobody's language-level id registers. -/
private theorem registers_of_unknown {t : Thread} {threadId : Int64} {threadName : String} {time : Int}
    (timeAdded : Nat) (suspends : Bool) (included : isThreadInExcludedThreadNamesList excludedThreadsList threadName = false)
    (pending : state.parentThreadIdsToTheirERTs threadId = some time)
    (unknown : state.threadStateIndex (state.threads t).tid = none) :
    Registers state (state.onStart excludedThreadsList t threadId threadName timeAdded suspends) t threadId time := by
  have slots : ∀ constructed : State Thread Slot, ∀ slot content,
      (constructed.setSlot slot content).add t = (constructed.add t).setSlot slot content := fun _ _ _ => rfl
  unfold State.onStart
  rw [check_passes included pending]
  simp only [State.findOrConstruct,State.getCurrentThreadState,State.onThread,Function.update_self,unknown,if_true,
    State.construct]
  cases (state.threads t).slot with
  | none =>
    simp only [State.add,State.newThreadStarted,State.onThread,Function.update_self,if_true,pending,Option.getD_some]
    exact ⟨by simp,by simp,by simp,by simp,fun other ne => by simp [ne],fun otherId ne => by simp [ne]⟩
  | some slot =>
    simp only [State.setSlot,State.add,State.newThreadStarted,State.onThread,Function.update_self,if_true,pending,
      Option.getD_some]
    exact ⟨by simp,by simp,by simp,by simp,fun other ne => by simp [ne],fun otherId ne => by simp [ne]⟩

/-- A thread that finds a state under its id for the operating system does not consume its announcement. -/
private theorem known_pending {t other : Thread} {threadId : Int64} {threadName : String} {time : Int}
    (timeAdded : Nat) (suspends : Bool) (included : isThreadInExcludedThreadNamesList excludedThreadsList threadName = false)
    (pending : state.parentThreadIdsToTheirERTs threadId = some time)
    (known : state.threadStateIndex (state.threads t).tid = some other) :
    (state.onStart excludedThreadsList t threadId threadName timeAdded suspends).parentThreadIdsToTheirERTs threadId =
      some time := by
  unfold State.onStart
  rw [check_passes included pending]
  simp only [State.findOrConstruct,State.getCurrentThreadState,State.onThread,Function.update_self,known,if_true,
    State.setPosition,reduceCtorEq,if_false]
  exact pending

/-- A thread that has been announced, and has not started or been announced again since, registers at its start
    exactly if its id for the operating system is not the language-level id of a registered thread. -/
theorem onStart_registers_iff (excludedThreadsList : List String) (before announced state : State Thread Slot)
    (parentThreadId threadId : Int64) (events : List (Event Thread Slot)) (t : Thread) (threadName : String)
    (timeAdded : Nat) (suspends : Bool)
    (announcement : before.newThreadBeingSpawned parentThreadId threadId = some announced)
    (executed : Runs.run (step excludedThreadsList) announced events = some state)
    (pending : Runs.Meets (step excludedThreadsList) (fun state event => event.announces ≠ some threadId ∧
      countsOff excludedThreadsList state event ≠ some threadId) announced events)
    (included : isThreadInExcludedThreadNamesList excludedThreadsList threadName = false) :
    (∃ time, parentTime before parentThreadId = some time ∧
      Registers state (state.onStart excludedThreadsList t threadId threadName timeAdded suspends) t threadId time) ↔
    state.threadStateIndex (state.threads t).tid = none := by
  obtain ⟨time,parent,stored⟩ := announced_time announcement
  have kept : state.parentThreadIdsToTheirERTs threadId = some time := (run_announcement pending executed).trans stored
  constructor
  · rintro ⟨_,-,registers⟩
    cases known : state.threadStateIndex (state.threads t).tid with
    | none => rfl
    | some other =>
      have consumed := registers.consumed
      rw [known_pending timeAdded suspends included kept known] at consumed
      cases consumed
  · intro unknown
    exact ⟨time,parent,registers_of_unknown timeAdded suspends included kept unknown⟩

/-- The main thread, with the language-level id 12321, and a thread of the operating system with the given id. -/
private def mainAndThread (tid : Int64) : List (Event Nat Nat) :=
  [.createThread 0 0 100,.onThreadMainStart 0 12321,.checkThread 0 12321 "main",.findOrConstruct 0 0 false,.add 0,
    .createThread 1 1 tid,.setEstimatedRealTime 0 40]

/-- The thread is announced as thread 7, and the main thread's time goes on. -/
theorem worker_registers : ∃ before announced state, Runs.run (step []) (initial Nat Nat) (mainAndThread 101) = some before ∧
    before.newThreadBeingSpawned 12321 7 = some announced ∧
    Runs.run (step []) announced [.setEstimatedRealTime 0 45] = some state ∧ ∃ time, parentTime before 12321 = some time ∧
      Registers state (state.onStart [] 1 7 "worker" 0 false) 1 7 time := by
  refine ⟨_,_,_,rfl,rfl,rfl,?_⟩
  refine (onStart_registers_iff [] _ _ _ 12321 7 [.setEstimatedRealTime 0 45] 1 "worker" 0 false rfl rfl ?_ rfl).mpr rfl
  exact ⟨⟨by simp [Event.announces],by simp [countsOff]⟩,fun _ _ => trivial⟩

/-- The operating system has given the thread the id that is the main thread's language-level id: the main
    thread is suspended, and the new one does not register. -/
theorem worker_suspends_main : ∃ state, Runs.run (step []) (initial Nat Nat)
      (mainAndThread 12321 ++ [.beforeCreatingThread 0 7]) = some state ∧
    state.parentThreadIdsToTheirERTs 7 = some 40 ∧
    (¬ ∃ time, Registers state (state.onStart [] 1 7 "worker" 0 true) 1 7 time) ∧
    (state.threads 0).currentState ≠ .suspended ∧
    ((state.onStart [] 1 7 "worker" 0 true).threads 0).currentState = .suspended := by
  have checked : (Runs.run (step []) (initial Nat Nat) (mainAndThread 12321 ++ [.beforeCreatingThread 0 7])).any
      (fun state => decide (state.parentThreadIdsToTheirERTs 7 = some 40 ∧
        (state.onStart [] 1 7 "worker" 0 true).parentThreadIdsToTheirERTs 7 = some 40 ∧
        (state.threads 0).currentState ≠ .suspended ∧
        ((state.onStart [] 1 7 "worker" 0 true).threads 0).currentState = .suspended)) = true := by decide +kernel
  obtain ⟨state,executed,found⟩ := Runs.exists_of_checked checked
  obtain ⟨announced,left,before,after⟩ := of_decide_eq_true found
  refine ⟨state,executed,announced,fun ⟨time,registers⟩ => ?_,before,after⟩
  rw [registers.consumed] at left
  cases left

end Vexjine.ThreadRegistry
