import Vexjine.RunningInvariant

/-!
# One running thread for each manager

Each step of an expected kind keeps its own thread's affairs in order: the steps
of a scheduler with a request, those of the signal handler, and those of the
thread and of the ones that wake it. Hence in every run a thread is the running
one of at most one manager, which controls it.
-/

namespace Vexjine.RunningThreads
open IntentionHandshake (Intention Handler)
set_option linter.unusedSimpArgs false
set_option linter.unusedSectionVars false

variable {Thread : Type} [DecidableEq Thread]

section Invariant
variable {state next last : State Thread} {s b : Thread} {manager : Nat} {thread : ThreadState}

/-! ## Steps of a scheduler with a request -/

/-- The scheduler that has the thread's key or waits for its answer is the only one that deals with it. -/
private theorem only_of_holder (fine : Fine state s)
    (held : (state.threads s).handshake.sharedAccessKey = some (.scheduler manager)) (other : Nat)
    (deals : (state.schedulers other).dealsWith s) : other = manager := by
  rcases deals with awaits | releases | answered
  · have waits := (fine.waits other).mpr awaits
    obtain nobody | ⟨waiter,alone,key⟩ := fine.handshake.alone
    · simp [nobody] at waits
    · obtain rfl : other = waiter := by simpa [alone] using waits
      simpa [held] using key.symm
  · have key := fine.holds other (.inl releases)
    simpa [held] using key.symm
  · have key := fine.holds other (.inr answered)
    simpa [held] using key.symm

/-- What the schedulers do after a step of the one that deals with the thread. -/
private theorem setActivity_iff {activity after : Activity Thread}
    (only : ∀ other, (state.schedulers other).dealsWith s → other = manager) (deals : activity.dealsWith s) (other : Nat) :
    (state.setActivity manager after).schedulers other = activity ↔ other = manager ∧ after = activity := by
  by_cases same : other = manager
  · subst same
    simp [State.setActivity]
  · simp only [State.setActivity,Function.update_of_ne same,same,false_and,iff_false]
    intro equal
    exact same (only other (equal ▸ deals))

private theorem waiting_of_awaits (fine : Fine state s) (awaits : state.schedulers manager = .awaits s) :
    (state.threads s).handshake.waiting = [manager] ∧ (state.threads s).handshake.sharedAccessKey = some (.scheduler manager) := by
  have waits := (fine.waits manager).mpr awaits
  obtain nobody | ⟨waiter,alone,key⟩ := fine.handshake.alone
  · simp [nobody] at waits
  · obtain rfl : manager = waiter := by simpa [alone] using waits
    exact ⟨alone,key⟩

/-- After a step of the one scheduler that deals with the thread. -/
private theorem fine_of_dealing {after : Activity Thread}
    (activity : ∀ activity other, activity.dealsWith s → (next.schedulers other = activity ↔ other = manager ∧ after = activity))
    (handshake : IntentionHandshake.Invariant (next.threads s).handshake) (placed : Placed (next.threads s))
    (waits : ∀ other, other ∈ (next.threads s).handshake.waiting ↔ other = manager ∧ after = .awaits s)
    (holds : (after = .releases s ∨ ∃ intention, after = .answered s intention) →
      (next.threads s).handshake.sharedAccessKey = some (.scheduler manager))
    (asked : (after = .awaits s ∨ ∃ intention, after = .answered s intention) → next.runningThread manager = some s)
    (once : ∀ first second, next.runningThread first = some s → next.runningThread second = some s → first = second)
    (home : ∀ other, next.runningThread other = some s → (other = manager ∧ ∃ intention, intention ≠ .toKeepOnRunning ∧
        (after = .awaits s ∧ (next.threads s).handshake.suspendFlag = some intention ∨ after = .answered s intention)) ∨
      Steady (next.threads s) ∧ (next.threads s).isRunning = true ∧ (next.threads s).manager = some other)
    (disregarded : after = .awaits s ∧ (next.threads s).handshake.suspendFlag = some .toBeDisregarded ∨
      after = .answered s .toBeDisregarded → Steady (next.threads s) → (next.threads s).isRunning = false)
    (awake : ((next.threads s).place = .blocked ∧ (next.threads s).awaken = true ∨ (next.threads s).place = .resuming) →
      ∀ other, next.runningThread other ≠ some s)
    (works : Steady (next.threads s) → (next.threads s).isRunning = true → (next.threads s).timedOut = 0 →
      ∀ other, (next.threads s).manager = some other → next.runningThread other = some s) : Fine next s := by
  have awaits : ∀ other, next.schedulers other = .awaits s ↔ other = manager ∧ after = .awaits s :=
    fun other => activity _ other (.inl rfl)
  have releases : ∀ other, next.schedulers other = .releases s ↔ other = manager ∧ after = .releases s :=
    fun other => activity _ other (.inr (.inl rfl))
  have answered : ∀ other intention, next.schedulers other = .answered s intention ↔ other = manager ∧ after = .answered s intention :=
    fun other intention => activity _ other (.inr (.inr ⟨intention,rfl⟩))
  refine ⟨handshake,placed,?_,?_,?_,once,?_,?_,awake,works⟩
  · simpa only [awaits] using waits
  · simp only [releases,answered]
    rintro other (⟨rfl,released⟩ | ⟨intention,rfl,read⟩)
    · exact holds (.inl released)
    · exact holds (.inr ⟨intention,read⟩)
  · simp only [awaits,answered]
    rintro other (⟨rfl,waiting⟩ | ⟨intention,rfl,read⟩)
    · exact asked (.inl waiting)
    · exact asked (.inr ⟨intention,read⟩)
  · intro other running
    refine (home other running).imp_left fun ⟨mine,intention,leaves,deals⟩ => ⟨intention,leaves,?_⟩
    simpa only [awaits,answered,mine,true_and] using deals
  · simp only [awaits,answered]
    rintro other (⟨⟨rfl,waiting⟩,flag⟩ | ⟨rfl,read⟩)
    · exact disregarded (.inl ⟨waiting,flag⟩)
    · exact disregarded (.inr read)

private theorem fine_of_asked {handshake : IntentionHandshake.State} (fine : Fine state s)
    (key : (state.threads s).handshake.sharedAccessKey = none) (running : state.runningThread manager = some s)
    (asked : (state.threads s).handshake.ask manager = some handshake) :
    Fine ((state.onThread s fun thread => { thread with handshake }).setActivity manager (.awaits s)) s := by
  have free := free_of_none key
  have quiet := unheld fine free
  have settled := settled fine free running
  have nobody := nobody_waits fine free
  have flag := fine.handshake.clear nobody
  obtain ⟨inv,-⟩ := IntentionHandshake.invariant_ask fine.handshake asked
  simp only [IntentionHandshake.State.ask,Option.ite_none_right_eq_some,Option.some.injEq] at asked
  obtain ⟨-,rfl⟩ := asked
  obtain ⟨inside,entering,outside,native,last,timedOut⟩ := fine.placed
  refine fine_of_dealing (fun activity other deals => setActivity_iff (fun other deals => absurd deals (quiet other)) deals other)
    ?_ ?_ ?_ ?_ ?_ fine.once ?_ ?_ ?_ ?_
  all_goals simp only [State.setActivity,onThread_self]
  · exact inv
  · exact ⟨fun place => by simp [inside place] at key,entering,outside,native,last,timedOut⟩
  · simp [nobody]
  · simp
  · exact fun _ => running
  · intro other runs
    obtain rfl := fine.once other manager runs running
    exact .inr settled
  · intro disregarded
    simp [flag] at disregarded
  · exact fine.awake
  · exact fine.works

private theorem fine_of_read {handshake : IntentionHandshake.State} {intention : Intention} (fine : Fine state s)
    (awaits : state.schedulers manager = .awaits s) (flag : (state.threads s).handshake.suspendFlag = some intention)
    (read : IntentionHandshake.step (state.threads s).handshake (.getSuspendingThreadIntention manager) = some handshake) :
    Fine ((state.onThread s fun thread => { thread with handshake }).setActivity manager (.answered s intention)) s := by
  obtain ⟨alone,key⟩ := waiting_of_awaits fine awaits
  have only := only_of_holder fine key
  obtain ⟨inv,nobody⟩ := IntentionHandshake.invariant_read fine.handshake read
  simp only [IntentionHandshake.step,Option.ite_none_right_eq_some,Option.some.injEq] at read
  obtain ⟨-,rfl⟩ := read
  have running := fine.asked manager (.inl awaits)
  obtain ⟨inside,entering,outside,native,last,timedOut⟩ := fine.placed
  refine fine_of_dealing (fun activity other deals => setActivity_iff only deals other) ?_ ?_ ?_ ?_ ?_ fine.once ?_ ?_ ?_ ?_
  all_goals simp only [State.setActivity,onThread_self]
  · exact inv
  · exact ⟨inside,entering,outside,native,last,timedOut⟩
  · simp only [alone]
    simp
  · exact fun _ => key
  · exact fun _ => running
  · intro other runs
    obtain rfl := fine.once other manager runs running
    refine (fine.home other runs).imp_left ?_
    rintro ⟨answer,leaves,deals⟩
    refine ⟨rfl,answer,leaves,.inr ?_⟩
    rcases deals with ⟨-,answered⟩ | answered
    · rw [flag,Option.some.injEq] at answered
      rw [answered]
    · simp [awaits] at answered
  · rintro (⟨other,-⟩ | answered)
    · cases other
    · obtain rfl : intention = .toBeDisregarded := by simpa using answered
      exact fine.disregarded manager (.inl ⟨awaits,flag⟩)
  · exact fine.awake
  · exact fine.works

private theorem nobody_of_answered {intention : Intention} (fine : Fine state s)
    (answered : state.schedulers manager = .answered s intention) : (state.threads s).handshake.waiting = [] := by
  have key := fine.holds manager (.inr ⟨intention,answered⟩)
  refine fine.handshake.alone.resolve_right fun ⟨waiter,alone,held⟩ => ?_
  obtain rfl : manager = waiter := by simpa [key] using held
  have awaits := (fine.waits manager).mp (by simp [alone])
  simp [answered] at awaits

/-- The scheduler takes the thread, which has left, from its core. -/
private theorem fine_of_taken {intention : Intention} {change : ThreadState → ThreadState} (fine : Fine state s)
    (answered : state.schedulers manager = .answered s intention)
    (inv : IntentionHandshake.Invariant (change (state.threads s)).handshake) (placed : Placed (change (state.threads s)))
    (same : SameRequests (state.threads s).handshake (change (state.threads s)).handshake)
    (stopped : Steady (change (state.threads s)) → (change (state.threads s)).isRunning = false) :
    Fine (((state.unsetCurrentThreadFromRunningThread manager s).onThread s change).setActivity manager (.releases s)) s := by
  have key := fine.holds manager (.inr ⟨intention,answered⟩)
  have running := fine.asked manager (.inr ⟨intention,answered⟩)
  have left := unset_leaves fun other runs => fine.once other manager runs running
  have thread : ((state.unsetCurrentThreadFromRunningThread manager s).onThread s change).threads s = change (state.threads s) := by
    rw [onThread_self,unset_threads]
  have schedulers : ((state.unsetCurrentThreadFromRunningThread manager s).onThread s change).schedulers = state.schedulers :=
    unset_schedulers
  refine fine_of_dealing (fun activity other deals => setActivity_iff ?_ deals other) ?_ ?_ ?_ ?_ ?_ ?_ ?_ ?_ ?_ ?_
  · rw [schedulers]
    exact only_of_holder fine key
  all_goals simp only [State.setActivity,thread]
  · exact inv
  · exact placed
  · simp [same.waiting,nobody_of_answered fine answered]
  · exact fun _ => same.key manager key
  · simp
  · exact fun first second runs => absurd runs (left first)
  · exact fun other runs => absurd runs (left other)
  · simp
  · exact fun _ => left
  · exact fun steady runs => by simp [stopped steady] at runs

private theorem fine_of_processed {intention : Intention} (fine : Fine state s)
    (answered : state.schedulers manager = .answered s intention) :
    Fine ((state.process manager s intention).setActivity manager (.releases s)) s := by
  have running := fine.asked manager (.inr ⟨intention,answered⟩)
  cases intention with
  | toBeSuspended =>
    obtain ⟨inside,entering,outside,native,last,timedOut⟩ := fine.placed
    refine fine_of_taken fine answered ?_ ⟨inside,fun _ => .inl rfl,outside,native,last,fun _ runs => by cases runs⟩
      ⟨rfl,rfl,fun _ => id⟩ fun _ => rfl
    exact IntentionHandshake.invariant_of_same fine.handshake rfl rfl rfl rfl rfl
  | toBeDisregarded =>
    have taken := @fine_of_taken _ _ _ _ _ _ id fine answered fine.handshake fine.placed ⟨rfl,rfl,fun _ => id⟩
      (fine.disregarded manager (.inr answered))
    rwa [onThread_id] at taken
  | toKeepOnRunning =>
    have key := fine.holds manager (.inr ⟨_,answered⟩)
    have settled : Steady (state.threads s) ∧ (state.threads s).isRunning = true ∧ (state.threads s).manager = some manager := by
      refine (fine.home manager running).resolve_left fun ⟨intention,leaves,deals⟩ => ?_
      rcases deals with ⟨awaits,-⟩ | other
      · simp [answered] at awaits
      · rw [answered,Activity.answered.injEq] at other
        exact leaves other.2.symm
    have core : state.setRunning manager (some s) = state := by
      rw [← running]
      simp [State.setRunning]
    have controlled : (state.threads s).setThreadCurrentlyControllingManager manager = state.threads s := by
      rw [ThreadState.setThreadCurrentlyControllingManager,← settled.2.2]
      rfl
    -- what is overwritten is what was there
    have same : state.process manager s .toKeepOnRunning = state := by
      simp [State.process,core,State.onThread,controlled]
    rw [same]
    refine fine_of_dealing (fun activity other deals => setActivity_iff (only_of_holder fine key) deals other)
      fine.handshake fine.placed ?_ (fun _ => key) (by simp) fine.once ?_ (by simp) fine.awake fine.works
    · simp [State.setActivity,nobody_of_answered fine answered]
    · intro other runs
      obtain rfl := fine.once other manager runs running
      exact .inr settled

private theorem fine_of_unlocked (fine : Fine state s) (releases : state.schedulers manager = .releases s) :
    Fine ((state.onThread s fun thread => thread.setKey none).setActivity manager .idle) s := by
  have key := fine.holds manager (.inl releases)
  have only := only_of_holder fine key
  have quiet : ∀ other, ¬ (state.schedulers other = .awaits s ∨ ∃ intention, state.schedulers other = .answered s intention) := by
    intro other deals
    obtain rfl := only other (deals.imp_right .inr)
    simp [releases] at deals
  have nobody : (state.threads s).handshake.waiting = [] := by
    refine fine.handshake.alone.resolve_right fun ⟨waiter,alone,held⟩ => quiet waiter (.inl ?_)
    exact (fine.waits waiter).mp (by simp [alone])
  have inv := IntentionHandshake.invariant_unlock fine.handshake
    (show (state.threads s).handshake.canAct (.scheduler manager) = true by simp [IntentionHandshake.State.canAct,nobody]) (.inr key)
  obtain ⟨inside,entering,outside,native,last,timedOut⟩ := fine.placed
  refine fine_of_dealing (fun activity other deals => setActivity_iff only deals other) ?_ ?_ ?_ ?_ ?_ fine.once ?_ ?_ ?_ ?_
  all_goals simp only [State.setActivity,onThread_self]
  · exact inv
  · exact ⟨fun place => by simp [inside place] at key,entering,outside,native,last,timedOut⟩
  · simp [ThreadState.setKey,nobody]
  · simp
  · simp
  · intro other runs
    refine .inr ((fine.home other runs).resolve_left ?_)
    rintro ⟨intention,-,deals⟩
    apply quiet other
    exact deals.imp (fun awaits => awaits.1) fun answered => ⟨intention,answered⟩
  · simp
  · exact fine.awake
  · exact fine.works

private theorem unset_iff (other : Nat) : (state.unsetCurrentThreadFromRunningThread manager s).runningThread other = some s ↔
    state.runningThread other = some s ∧ other ≠ manager := by
  unfold State.unsetCurrentThreadFromRunningThread
  split
  · by_cases same : other = manager
    · simp [State.setRunning,same]
    · simp [State.setRunning,same]
  · next idle => exact ⟨fun runs => ⟨runs,fun same => idle (same ▸ runs)⟩,fun both => both.1⟩

/-- The scheduler has given up on the key of the thread, which is in VEX. -/
private theorem fine_of_timedOut (fine : Fine state s) (suspends : state.schedulers manager = .suspends s)
    (fits : (state.threads s).place ≠ .outside) :
    Fine ((state.unsetCurrentThreadFromRunningThread manager s).onThread s
      fun thread => { thread with timedOut := thread.timedOut + 1 }) s := by
  obtain ⟨inside,entering,outside,native,last,timedOut⟩ := fine.placed
  generalize moved : (state.unsetCurrentThreadFromRunningThread manager s).onThread s _ = next
  have thread : next.threads s = { state.threads s with timedOut := (state.threads s).timedOut + 1 } := by
    rw [← moved,onThread_self,unset_threads]
  have schedulers : next.schedulers = state.schedulers := by rw [← moved,State.onThread,unset_schedulers]
  have core : ∀ other, next.runningThread other = some s ↔ state.runningThread other = some s ∧ other ≠ manager := by
    rw [← moved]
    exact unset_iff
  constructor
  all_goals simp only [thread,schedulers,core,Leaving]
  · exact fine.handshake
  · exact ⟨inside,entering,outside,native,last,fun _ _ => fits⟩
  · exact fine.waits
  · exact fine.holds
  · refine fun other deals => ⟨fine.asked other deals,?_⟩
    rintro rfl
    simp [suspends] at deals
  · exact fun first second firstRuns secondRuns => fine.once first second firstRuns.1 secondRuns.1
  · exact fun other runs => fine.home other runs.1
  · exact fine.disregarded
  · exact fun wakes other runs => fine.awake wakes other ((core other).mp runs).1
  · exact fun _ _ none => by simp at none

/-! ## Steps of the signal handler -/

private theorem undisturbed_of_leaving (fine : Fine state s)
    (leaves : (state.threads s).handlerAt .leavesNativeWaiting = true) : Undisturbed (state.threads s) := by
  intro handler member
  cases shape : (state.threads s).handlers with
  | nil => simp [shape] at member
  | cons first rest =>
    have last := fine.placed.last
    simp only [shape,List.tail_cons] at last
    rw [shape] at member
    rcases List.mem_cons.mp member with rfl | later
    · simp only [ThreadState.handlerAt,shape,List.head?_cons,Option.any_some,decide_eq_true_eq] at leaves
      simp [leaves]
    · exact last handler later

/-- A handler that returns leaves its thread outside, where it has interrupted it. -/
private theorem returnFromHandler_outside (outside : ∀ place ∈ thread.interrupted, place = .outside) :
    ∃ interrupted : List Place, (∀ place ∈ interrupted, place = .outside) ∧
      thread.returnFromHandler = { thread with place := .outside,interrupted } := by
  refine ⟨thread.interrupted.tail,fun place member => outside place (List.mem_of_mem_tail member),?_⟩
  rw [ThreadState.returnFromHandler]
  cases shape : thread.interrupted with
  | nil => rfl
  | cons first rest =>
    obtain rfl := outside first (by simp [shape])
    rfl

private theorem afterProceed_outside {handlers : Nat} (outside : ∀ place ∈ thread.interrupted, place = .outside)
    (place : thread.place = .outside ∨ thread.handlers.length < handlers) :
    ∃ interrupted : List Place, (∀ place ∈ interrupted, place = .outside) ∧
      State.afterProceed handlers thread = { thread with place := .outside,interrupted } := by
  unfold State.afterProceed
  split
  · exact returnFromHandler_outside outside
  · next more =>
    have place := place.resolve_right more
    exact ⟨thread.interrupted,outside,by rw [← place]⟩

/-- The innermost handler goes on to another position, or returns to where its thread is outside VEX. -/
private theorem fine_of_moved {handler : Handler} {rest moved : List Handler} {polled : Bool} (fine : Fine state s)
    (shape : (state.threads s).handlers = handler :: rest) (place : (state.threads s).place = .outside)
    (inv : IntentionHandshake.Invariant { (state.threads s).handshake with
      handlers := moved,currentlyPolledForWhetherItIsNativeWaiting := polled })
    (silent : handler.position ≠ .becomesNativeWaiting)
    (kept : moved = rest ∨ ∃ position asked, position ≠ .becomesNativeWaiting ∧ moved = ⟨position,asked⟩ :: rest) :
    Fine (state.onThread s fun thread => State.afterProceed (state.threads s).handlers.length { thread with
      handshake := { (state.threads s).handshake with
        handlers := moved,currentlyPolledForWhetherItIsNativeWaiting := polled } }) s := by
  have quiet : (∀ other ∈ moved, other.position ≠ .becomesNativeWaiting) ↔
      ∀ other ∈ (state.threads s).handlers, other.position ≠ .becomesNativeWaiting := by
    rw [shape]
    rcases kept with rfl | ⟨position,asked,goesOn,rfl⟩
    · simp [silent]
    · simp [silent,goesOn]
  have last : ∀ other ∈ moved.tail, other.position ≠ .becomesNativeWaiting := by
    have last := fine.placed.last
    rw [shape,List.tail_cons] at last
    rcases kept with rfl | ⟨position,asked,-,rfl⟩
    · exact fun other member => last other (List.mem_of_mem_tail member)
    · exact last
  obtain ⟨inside,entering,outside,native,-,timedOut⟩ := fine.placed
  obtain ⟨interrupted,stays,moves⟩ := @afterProceed_outside { state.threads s with
      handshake := { (state.threads s).handshake with handlers := moved,currentlyPolledForWhetherItIsNativeWaiting := polled } }
    (state.threads s).handlers.length outside (.inl place)
  refine fine_of_same fine ?_ ?_ ?_ ?_ ?_ ?_ ?_ ?_
  all_goals simp only [moves]
  · exact inv
  · refine ⟨fun inVex => ?_,fun entering => ?_,stays,fun _ => rfl,last,fun some runs _ => timedOut some runs place⟩
    · simp at inVex
    · cases entering
  · exact ⟨rfl,rfl,fun _ => id⟩
  · rfl
  · rfl
  · rw [Steady,Steady,place]
    exact and_congr_right fun _ => and_congr_right fun _ => quiet
  · simp

/-- The handler takes its thread out of native waiting for good: it frees the key and returns. -/
private theorem fine_of_left {handler : Handler} {rest : List Handler} (fine : Fine state s)
    (shape : (state.threads s).handlers = handler :: rest) (leaves : handler.position = .leavesNativeWaiting)
    (place : (state.threads s).place = .outside ∨ (state.threads s).place = .inVex ∧ (state.threads s).timedOut = 0)
    (may : IntentionHandshake.MayUnlock (state.threads s).handshake .thread) :
    Fine (state.onThread s fun thread => State.afterProceed (state.threads s).handlers.length { thread with
      handshake := { (state.threads s).handshake with sharedAccessKey := none,handlers := rest } }) s := by
  have free := free_of_mayUnlock may
  have handlers : (state.threads s).handshake.handlers = handler :: rest := shape
  have last := fine.placed.last
  rw [shape,List.tail_cons] at last
  obtain ⟨-,-,outside,-,-,timedOut⟩ := fine.placed
  obtain ⟨interrupted,stays,moves⟩ := @afterProceed_outside { state.threads s with
      handshake := { (state.threads s).handshake with sharedAccessKey := none,handlers := rest } }
    (state.threads s).handlers.length outside (.inr (by simp [handlers,ThreadState.handlers]))
  have before : Steady (state.threads s) := by
    refine ⟨?_,?_,?_⟩
    · rcases place with outside | ⟨inVex,-⟩
      · simp [outside]
      · simp [inVex]
    · rcases place with outside | ⟨inVex,-⟩
      · simp [outside]
      · simp [inVex]
    · simpa [shape,leaves] using last
  refine fine_of_outcome fine free rfl ?_ ?_ ?_ ?_ ?_ ?_
  all_goals try simp only [onThread_self,moves]
  · simp [IntentionHandshake.owed,handlers,List.countP_cons,IntentionHandshake.Handler.owes,leaves,
      IntentionHandshake.Position.unanswered]
  · rw [handlers]
    exact fun other member => List.mem_cons_of_mem _ member
  · refine ⟨fun inVex => ?_,fun entering => ?_,stays,fun _ => rfl,fun other member => last other (List.mem_of_mem_tail member),
      fun some runs _ => ?_⟩
    · simp at inVex
    · cases entering
    · rcases place with outside | ⟨-,none⟩
      · exact timedOut some runs outside
      · exact some none
  · rcases rests_or_works fine free with rests | ⟨manager,works⟩
    · refine .inl ⟨rests.core,?_⟩
      simp only [onThread_self,moves]
      exact fun _ => rests.waits before
    · refine .inr ⟨manager,works.core,?_,?_,?_⟩
      all_goals simp only [onThread_self,moves]
      · exact ⟨by simp,by simp,last⟩
      · exact works.running
      · exact works.controlled

/-- The handler has answered, and its thread now waits in native code. -/
private theorem fine_of_becomes {handler : Handler} {rest : List Handler} (fine : Fine state s)
    (shape : (state.threads s).handlers = handler :: rest) (becomes : handler.position = .becomesNativeWaiting)
    (place : (state.threads s).place = .outside)
    (inv : IntentionHandshake.Invariant { (state.threads s).handshake.setNativeWaiting with
      handlers := rest,currentlyPolledForWhetherItIsNativeWaiting := false,queued := (state.threads s).handshake.queued + 1 }) :
    Fine (state.onThread s fun thread => State.afterProceed (state.threads s).handlers.length { thread with
      handshake := { (state.threads s).handshake.setNativeWaiting with
        handlers := rest,currentlyPolledForWhetherItIsNativeWaiting := false,queued := (state.threads s).handshake.queued + 1 } }) s := by
  have last := fine.placed.last
  rw [shape,List.tail_cons] at last
  obtain ⟨interrupted,stays,moves⟩ := @afterProceed_outside { state.threads s with
      handshake := { (state.threads s).handshake.setNativeWaiting with
        handlers := rest,currentlyPolledForWhetherItIsNativeWaiting := false,queued := (state.threads s).handshake.queued + 1 } }
    (state.threads s).handlers.length fine.placed.outside (.inl place)
  refine fine_of_stopped fine ?_ ?_ ?_ ?_ (fun manager running => ?_) ?_
  · simp only [moves]
    exact inv
  · simp only [moves]
    refine ⟨fun inVex => ?_,fun entering => ?_,stays,fun _ => rfl,fun other member => last other (List.mem_of_mem_tail member),
      fun _ runs => ?_⟩
    · simp at inVex
    · cases entering
    · cases runs
  · simp only [moves]
    exact ⟨rfl,rfl,fun _ => id⟩
  · simp only [moves]
    rfl
  · exact (fine.home manager running).resolve_right fun home => home.1.2.2 handler (by simp [shape]) becomes
  · simp [moves]

private theorem fine_of_proceed {handshake : IntentionHandshake.State} {blocked : Bool} (fine : Fine state s)
    (place : (state.threads s).place = .outside ∨
      (state.threads s).place = .inVex ∧ (state.threads s).handlerAt .leavesNativeWaiting = true)
    (expected : IntentionHandshake.Expected (state.threads s).handshake (.proceed blocked))
    (fits : (state.threads s).place = .inVex → (state.threads s).timedOut = 0)
    (stepped : (state.threads s).handshake.proceed blocked = some handshake) :
    Fine (state.onThread s fun thread => State.afterProceed (state.threads s).handlers.length { thread with handshake }) s := by
  have inv := IntentionHandshake.invariant_proceed fine.handshake expected stepped
  cases shape : (state.threads s).handshake.handlers with
  | nil => simp [IntentionHandshake.State.proceed,shape] at stepped
  | cons handler rest =>
    obtain ⟨position,asked⟩ := handler
    have finds : IntentionHandshake.Finds (state.threads s).handshake ⟨position,asked⟩ := expected _ (by simp [shape])
    have outside : position ≠ .leavesNativeWaiting → (state.threads s).place = .outside := by
      intro other
      refine place.resolve_right ?_
      rintro ⟨-,leaves⟩
      apply other
      simpa [ThreadState.handlerAt,ThreadState.handlers,shape] using leaves
    have moves : ∀ {moved : List Handler} {polled : Bool},
        handshake = { (state.threads s).handshake with handlers := moved,currentlyPolledForWhetherItIsNativeWaiting := polled } →
        position ≠ .leavesNativeWaiting → position ≠ .becomesNativeWaiting →
        (moved = rest ∨ ∃ position asked, position ≠ .becomesNativeWaiting ∧ moved = ⟨position,asked⟩ :: rest) →
        Fine (state.onThread s fun thread => State.afterProceed (state.threads s).handlers.length { thread with handshake }) s := by
      rintro moved polled rfl other silent kept
      exact fine_of_moved fine shape (outside other) inv silent kept
    cases position with
    | pollsModel =>
      simp only [IntentionHandshake.State.proceed,shape] at stepped
      split at stepped
      · cases stepped
        exact moves rfl (by decide) (by decide) (.inr ⟨_,_,by decide,rfl⟩)
      · cases stepped
        exact moves rfl (by decide) (by decide) (.inr ⟨_,_,by decide,rfl⟩)
    | checksNativeWaiting =>
      simp only [IntentionHandshake.State.proceed,shape] at stepped
      split at stepped
      · split at stepped
        · cases stepped
          exact moves rfl (by decide) (by decide) (.inl rfl)
        · cases stepped
          exact moves rfl (by decide) (by decide) (.inr ⟨_,_,by decide,rfl⟩)
      · cases stepped
        exact moves rfl (by decide) (by decide) (.inr ⟨_,_,by decide,rfl⟩)
    | checksManager =>
      simp only [IntentionHandshake.State.proceed,shape] at stepped
      split at stepped
      · cases stepped
        exact moves rfl (by decide) (by decide) (.inl rfl)
      · cases stepped
        exact moves rfl (by decide) (by decide) (.inr ⟨_,_,by decide,rfl⟩)
    | answersPoll | answersRequest => simp [IntentionHandshake.State.proceed,shape] at stepped
    | suspended =>
      simp only [IntentionHandshake.State.proceed,shape,Option.some.injEq] at stepped
      subst stepped
      exact moves rfl (by decide) (by decide) (.inl rfl)
    | leavesNativeWaiting =>
      simp only [IntentionHandshake.State.proceed,shape,Option.some.injEq] at stepped
      subst stepped
      refine fine_of_left fine shape rfl (place.imp_right fun both => ⟨both.1,fits both.1⟩) finds
    | becomesNativeWaiting =>
      simp only [IntentionHandshake.State.proceed,shape,Option.some.injEq] at stepped
      subst stepped
      exact fine_of_becomes fine shape rfl (outside (by decide)) inv

/-- The handler's answer is the one that the scheduler waits for; a thread that leaves does not go on. -/
private theorem fine_of_answer {change : ThreadState → ThreadState} {intention : Intention} (fine : Fine state s)
    (inv : IntentionHandshake.Invariant (change (state.threads s)).handshake) (placed : Placed (change (state.threads s)))
    (empty : (state.threads s).handshake.suspendFlag = none)
    (flag : (change (state.threads s)).handshake.suspendFlag = some intention)
    (waiting : (change (state.threads s)).handshake.waiting = (state.threads s).handshake.waiting)
    (key : (change (state.threads s)).handshake.sharedAccessKey = (state.threads s).handshake.sharedAccessKey)
    (leaves : intention ≠ .toKeepOnRunning → ¬ Steady (change (state.threads s)))
    (stays : intention = .toKeepOnRunning → (Steady (change (state.threads s)) ↔ Steady (state.threads s)) ∧
      (change (state.threads s)).isRunning = (state.threads s).isRunning ∧
      (change (state.threads s)).manager = (state.threads s).manager ∧
      (change (state.threads s)).timedOut = (state.threads s).timedOut)
    (asleep : ¬ ((change (state.threads s)).place = .blocked ∧ (change (state.threads s)).awaken = true ∨
      (change (state.threads s)).place = .resuming)) : Fine (state.onThread s change) s := by
  obtain ⟨manager,alone,held⟩ := inv.alone.resolve_left fun nobody => by
    rw [inv.clear nobody] at flag
    cases flag
  rw [waiting] at alone
  rw [key] at held
  have awaits : state.schedulers manager = .awaits s := (fine.waits manager).mp (by simp [alone])
  have running := fine.asked manager (.inl awaits)
  have unread : ∀ other answer, state.schedulers other ≠ .answered s answer := by
    intro other answer read
    obtain rfl := only_of_holder fine held other (.inr (.inr ⟨answer,read⟩))
    simp [awaits] at read
  have settled : Steady (state.threads s) ∧ (state.threads s).isRunning = true ∧ (state.threads s).manager = some manager := by
    refine (fine.home manager running).resolve_left fun ⟨answer,_,deals⟩ => ?_
    rcases deals with ⟨-,answered⟩ | answered
    · simp [empty] at answered
    · exact unread manager answer answered
  constructor
  all_goals try simp only [onThread_self,Leaving]
  · exact inv
  · exact placed
  · rw [waiting]
    exact fine.waits
  · rw [key]
    exact fine.holds
  · exact fine.asked
  · exact fine.once
  · intro other runs
    obtain rfl := fine.once other manager runs running
    by_cases keeps : intention = .toKeepOnRunning
    · obtain ⟨steady,isRunning,controlled,-⟩ := stays keeps
      rw [steady,isRunning,controlled]
      exact .inr settled
    · exact .inl ⟨intention,keeps,.inl ⟨awaits,flag⟩⟩
  · rintro other (⟨-,disregarded⟩ | answered)
    · obtain rfl : intention = .toBeDisregarded := by simpa [flag] using disregarded
      exact fun steady => absurd steady (leaves (by decide))
    · exact absurd answered (unread other _)
  · exact fun wakes => absurd wakes asleep
  · intro steady
    by_cases keeps : intention = .toKeepOnRunning
    · obtain ⟨same,isRunning,controlled,timedOut⟩ := stays keeps
      rw [isRunning,controlled,timedOut]
      exact fine.works (same.mp steady)
    · exact absurd steady (leaves keeps)

private theorem fine_of_notified {handshake : IntentionHandshake.State} {intention : Intention} (fine : Fine state s)
    (place : (state.threads s).place = .outside) (answers : (state.threads s).handlerAt .answersRequest = true)
    (stepped : (state.threads s).handshake.notifySchedulerForIntention intention = some handshake) :
    Fine (state.onThread s fun thread => State.afterAnswer intention { thread with handshake }) s := by
  obtain ⟨inv,empty,flag,-⟩ := IntentionHandshake.invariant_notify fine.handshake stepped
  obtain ⟨inside,entering,outside,native,last,timedOut⟩ := fine.placed
  cases shape : (state.threads s).handshake.handlers with
  | nil => simp [ThreadState.handlerAt,ThreadState.handlers,shape] at answers
  | cons handler rest =>
    obtain ⟨position,asked⟩ := handler
    obtain rfl : position = .answersRequest := by simpa [ThreadState.handlerAt,ThreadState.handlers,shape] using answers
    have handlers : (state.threads s).handlers = ⟨.answersRequest,asked⟩ :: rest := shape
    rw [handlers,List.tail_cons] at last
    cases intention with
    | toBeSuspended =>
      simp only [IntentionHandshake.State.notifySchedulerForIntention,shape,Option.some.injEq] at stepped
      subst stepped
      refine fine_of_answer fine inv ⟨?_,?_,outside,?_,last,?_⟩ empty flag rfl rfl (fun _ steady => steady.1 rfl) ?_ ?_
      · exact fun inVex => by simp [State.afterAnswer,ThreadState.setPlace] at inVex
      · exact fun _ => .inl rfl
      · rintro ⟨handler,member,becomes⟩
        rcases List.mem_cons.mp member with rfl | later
        · cases becomes
        · exact absurd becomes (last handler later)
      · exact fun _ _ => by simp [State.afterAnswer,ThreadState.setPlace]
      · exact fun keeps => by cases keeps
      · simp [State.afterAnswer,ThreadState.setPlace,ThreadState.setAwaken]
    | toBeDisregarded =>
      simp only [IntentionHandshake.State.notifySchedulerForIntention,shape,Option.some.injEq] at stepped
      subst stepped
      refine fine_of_answer fine inv ⟨inside,entering,outside,fun _ => place,last,timedOut⟩ empty flag rfl rfl ?_ ?_ ?_
      · exact fun _ steady => steady.2.2 _ List.mem_cons_self rfl
      · exact fun keeps => by cases keeps
      · simp [State.afterAnswer,place]
    | toKeepOnRunning =>
      simp only [IntentionHandshake.State.notifySchedulerForIntention,shape,Option.some.injEq] at stepped
      subst stepped
      obtain ⟨interrupted,stays,moves⟩ := @returnFromHandler_outside { state.threads s with
        handshake := { (state.threads s).handshake with suspendFlag := some .toKeepOnRunning,handlers := rest } } outside
      have same : ∀ handshake, State.afterAnswer .toKeepOnRunning { state.threads s with handshake } =
          ThreadState.returnFromHandler { state.threads s with handshake } := fun _ => rfl
      refine fine_of_answer fine ?_ ?_ empty ?_ ?_ ?_ (fun leaves => absurd rfl leaves) (fun _ => ⟨?_,?_,?_,?_⟩) ?_
      all_goals simp only [same,moves]
      · exact inv
      · refine ⟨fun inVex => ?_,fun entering => ?_,stays,fun _ => rfl,fun other member => last other (List.mem_of_mem_tail member),
          fun some runs _ => timedOut some runs place⟩
        · simp at inVex
        · cases entering
      · rw [Steady,Steady,place,handlers]
        refine and_congr_right fun _ => and_congr_right fun _ => ?_
        simp [ThreadState.handlers]
      · rfl
      · rfl
      · simp

/-! ## Steps of the thread and of those that wake it -/

/-- The thread goes in or out of VEX. -/
private theorem fine_of_moves {change : ThreadState → ThreadState} (fine : Fine state s) (free : Free (state.threads s))
    (undisturbed : Undisturbed (state.threads s)) (calm : Calm (state.threads s) (change (state.threads s)))
    (running : (change (state.threads s)).isRunning = (state.threads s).isRunning)
    (controlled : (change (state.threads s)).manager = (state.threads s).manager)
    (before : (state.threads s).place = .outside ∨ (state.threads s).place = .inVex)
    (after : (change (state.threads s)).place = .outside ∧ ((state.threads s).place = .inVex → (state.threads s).timedOut = 0) ∨
      (change (state.threads s)).place = .inVex ∧ (change (state.threads s)).handshake.sharedAccessKey = some .thread) :
    Fine (state.onThread s change) s := by
  have steady : Steady (state.threads s) ∧ Steady (change (state.threads s)) := by
    refine ⟨⟨?_,?_,undisturbed⟩,?_,?_,?_⟩
    · rcases before with outside | inVex <;> simp [*]
    · rcases before with outside | inVex <;> simp [*]
    · rcases after with ⟨outside,-⟩ | ⟨inVex,-⟩ <;> simp [*]
    · rcases after with ⟨outside,-⟩ | ⟨inVex,-⟩ <;> simp [*]
    · rw [calm.handlers]
      exact undisturbed
  refine fine_of_calm fine free undisturbed rfl ?_ ?_ ?_ ?_ ?_
  all_goals try simp only [onThread_self]
  · exact calm
  · rcases after with ⟨outside,-⟩ | ⟨-,key⟩
    · simp [outside]
    · exact fun _ => key
  · rcases after with ⟨outside,-⟩ | ⟨inVex,-⟩
    · simp [outside]
    · simp [inVex]
  · rw [running,calm.timedOut]
    rcases after with ⟨-,none⟩ | ⟨inVex,-⟩
    · rcases before with outside | inVex
      · exact fun some runs => absurd outside (fine.placed.timedOut some runs)
      · exact fun some => absurd (none inVex) some
    · simp [inVex]
  · rcases rests_or_works fine free with rests | ⟨manager,works⟩
    · refine .inl ⟨rests.core,?_⟩
      rw [onThread_self,running,controlled,calm.timedOut]
      exact fun _ => rests.waits steady.1
    · refine .inr ⟨manager,works.core,?_,?_,?_⟩
      · rw [onThread_self]
        exact steady.2
      · rw [onThread_self,running]
        exact works.running
      · rw [onThread_self,controlled]
        exact works.controlled

private theorem nobody_of_stopped (fine : Fine state s) (free : Free (state.threads s))
    (stopped : (state.threads s).isRunning = false ∨ (state.threads s).manager = none) (other : Nat) :
    state.runningThread other ≠ some s := fun running => by
  obtain ⟨-,runs,controlled⟩ := settled fine free running
  rcases stopped with stopped | missing
  · simp [stopped] at runs
  · simp [missing] at controlled

/-- A stopped thread becomes suspended. -/
private theorem fine_of_wakes {change : ThreadState → ThreadState} (fine : Fine state s)
    (leaves : ∀ manager, state.runningThread manager = some s → Leaving state manager s)
    (same : (change (state.threads s)).handshake =
      { (state.threads s).handshake with currentState := (change (state.threads s)).handshake.currentState })
    (stopped : (change (state.threads s)).isRunning = false) (awaken : (change (state.threads s)).awaken = false)
    (place : (change (state.threads s)).place = (state.threads s).place)
    (interrupted : (change (state.threads s)).interrupted = (state.threads s).interrupted) :
    Fine (state.onThread s change) s := by
  obtain ⟨inside,entering,outside,native,last,timedOut⟩ := fine.placed
  have handlers : (change (state.threads s)).handlers = (state.threads s).handlers := by rw [ThreadState.handlers,same]; rfl
  have key : (change (state.threads s)).handshake.sharedAccessKey = (state.threads s).handshake.sharedAccessKey := by rw [same]
  refine fine_of_stopped fine ?_ ⟨?_,fun _ => .inl stopped,?_,?_,?_,?_⟩ ⟨?_,?_,?_⟩ stopped leaves ?_
  · rw [same]
    exact IntentionHandshake.invariant_of_same fine.handshake rfl rfl rfl rfl rfl
  · rwa [place,key]
  · rwa [interrupted]
  · rwa [handlers,place]
  · rwa [handlers]
  · simp [stopped]
  · rw [same]
  · rw [same]
  · rw [key]
    exact fun _ => id
  · rw [awaken,place]
    exact fun wakes => .inr (by simpa using wakes)

/-- Every step of an expected kind keeps its own thread in order. -/
private theorem suspendThread_fine (fine : Fine state s)
    (stepped : step state (.suspendThread manager s) = some next) : Fine next s := by
  simp only [step,Option.ite_none_right_eq_some,State.keyFree,decide_eq_true_eq] at stepped
  obtain ⟨⟨suspends,key⟩,stepped⟩ := stepped
  split at stepped
  · next running =>
    obtain ⟨middle,asked,rfl⟩ := Option.map_eq_some_iff.mp stepped
    obtain ⟨handshake,asks,rfl⟩ := Option.map_eq_some_iff.mp asked
    exact fine_of_asked fine key running asks
  · cases stepped
    refine fine_of_untouched fine (setActivity_untouched ?_ ?_)
    · simp [suspends,Activity.dealsWith]
    · simp [Activity.dealsWith]

private theorem setNativeWaiting_fine (fine : Fine state s) (fits : Fits state (.setNativeWaiting manager s))
    (stepped : step state (.setNativeWaiting manager s) = some next) : Fine next s := by
  simp only [step,Option.ite_none_right_eq_some,Option.some.injEq] at stepped
  obtain ⟨timedOut,rfl⟩ := stepped
  obtain ⟨inside,-,outside,native,last,-⟩ := fine.placed
  refine fine_of_untouched (fine_of_stopped fine ?_ ⟨inside,fun _ => .inl rfl,outside,native,last,fun _ runs => ?_⟩
    ⟨rfl,rfl,fun _ => id⟩ rfl (leaves_of_idle fine fits) id) (setActivity_untouched ?_ ?_)
  · exact IntentionHandshake.invariant_of_same fine.handshake rfl rfl rfl rfl rfl
  · cases runs
  · simp [State.onThread,timedOut,Activity.dealsWith]
  · simp [Activity.dealsWith]

private theorem continueThread_fine (fine : Fine state s)
    (stepped : step state (.continueThread manager s) = some next) : Fine next s := by
  simp only [step,Option.ite_none_right_eq_some,Option.some.injEq,State.keyFree,decide_eq_true_eq] at stepped
  obtain ⟨⟨-,key,idle,-⟩,rfl⟩ := stepped
  have free := free_of_none key
  have stopped : (state.threads s).isRunning = false := by
    rcases idle with suspended | waiting
    · simp [ThreadState.isRunning,suspended]
    · simp [ThreadState.isRunning,waiting]
  have nobody := nobody_of_stopped fine free (.inl stopped)
  obtain ⟨inside,-,outside,native,last,-⟩ := fine.placed
  refine fine_of_outcome fine free rfl ?_ ?_ ?_ ?_ ?_ (.inl ⟨nobody,?_⟩)
  all_goals simp only [onThread_self]
  · rfl
  · rfl
  · rfl
  · exact fun _ => id
  · exact ⟨inside,fun _ => .inl rfl,outside,native,last,fun _ runs => by cases runs⟩
  · exact fun _ runs => by cases runs

private theorem pollNativeWaitingThreads_fine (fine : Fine state s)
    (stepped : step state (.pollNativeWaitingThreads s) = some next) : Fine next s := by
  obtain ⟨handshake,polls,rfl⟩ := Option.map_eq_some_iff.mp stepped
  have inv := IntentionHandshake.step_invariant fine.handshake
    (show IntentionHandshake.Expected (state.threads s).handshake .pollNativeWaitingThreads from trivial) polls
  simp only [IntentionHandshake.step,Option.ite_none_right_eq_some,Option.some.injEq] at polls
  obtain ⟨-,rfl⟩ := polls
  obtain ⟨inside,entering,outside,native,last,timedOut⟩ := fine.placed
  exact fine_of_same fine inv ⟨inside,entering,outside,native,last,timedOut⟩ ⟨rfl,rfl,fun _ => id⟩ rfl rfl rfl Iff.rfl id

private theorem deliver_fine (fine : Fine state s) (fits : Fits state (.deliver s))
    (stepped : step state (.deliver s) = some next) : Fine next s := by
  obtain ⟨handshake,delivers,rfl⟩ := Option.map_eq_some_iff.mp stepped
  have inv := IntentionHandshake.step_invariant fine.handshake
    (show IntentionHandshake.Expected (state.threads s).handshake .deliver from trivial) delivers
  obtain ⟨asked,-,rfl⟩ := Option.map_eq_some_iff.mp delivers
  obtain ⟨place,undisturbed⟩ := fits
  obtain ⟨-,-,outside,native,last,timedOut⟩ := fine.placed
  refine fine_of_same fine inv ⟨fun inVex => ?_,fun entering => ?_,?_,fun _ => rfl,undisturbed,fun some runs _ => ?_⟩
    ⟨rfl,rfl,fun _ => id⟩ rfl rfl rfl ?_ ?_
  · simp at inVex
  · cases entering
  · exact fun other member => (List.mem_cons.mp member).elim (fun same => same.trans place) (outside other)
  · exact timedOut some runs place
  · rw [Steady,Steady,place]
    refine and_congr_right fun _ => and_congr_right fun _ => ?_
    simp [ThreadState.handlers]
  · simp

private theorem onThreadSpawn_fine (fine : Fine state s)
    (stepped : step state (.onThreadSpawn manager s) = some next) : Fine next s := by
  simp only [step,Option.ite_none_right_eq_some,Option.some.injEq,State.runsCode,State.keyFree,decide_eq_true_eq] at stepped
  obtain ⟨⟨⟨place,handlers⟩,key,registering⟩,rfl⟩ := stepped
  have free := free_of_none key
  have stopped : (state.threads s).isRunning = false := by simp [ThreadState.isRunning,registering]
  have nobody := nobody_of_stopped fine free (.inl stopped)
  refine fine_of_calm fine free (by simp [Undisturbed,handlers]) rfl ?_ ?_ ?_ ?_ (.inl ⟨nobody,?_⟩)
  all_goals rw [onThread_self]
  · exact ⟨rfl,rfl,rfl,rfl,rfl,rfl⟩
  · exact fun _ => rfl
  · exact fun entering => by cases entering
  · exact fun _ _ outside => by cases outside
  · exact fun _ runs => absurd (stopped.symm.trans runs) (by decide)

private theorem ensureThreadIsNotInNativeWaitingStateWhenEnteringVex_fine (fine : Fine state s)
    (stepped : step state (.ensureThreadIsNotInNativeWaitingStateWhenEnteringVex s) = some next) : Fine next s := by
  simp only [step,Option.ite_none_right_eq_some,Option.some.injEq,State.runsCode,decide_eq_true_eq] at stepped
  obtain ⟨⟨⟨place,handlers⟩,-,stopped⟩,rfl⟩ := stepped
  obtain ⟨-,-,outside,-,last,-⟩ := fine.placed
  refine fine_of_same fine ?_ ⟨fun inVex => ?_,fun _ => stopped,outside,?_,last,fun _ _ => ?_⟩ ⟨rfl,rfl,fun _ => id⟩ rfl rfl rfl ?_ ?_
  · exact IntentionHandshake.invariant_of_same fine.handshake rfl rfl rfl rfl rfl
  · simp [ThreadState.setPlace] at inVex
  · rintro ⟨handler,member,-⟩
    have member : handler ∈ (state.threads s).handlers := member
    simp [handlers] at member
  · simp [ThreadState.setPlace]
  · simp [Steady,ThreadState.setPlace,ThreadState.handlers,place]
  · simp [ThreadState.setPlace]

private theorem suspendLooseCurrentThread_fine {fallback : Nat} {runnableThreadsEmpty : Bool} (fine : Fine state s)
    (stepped : step state (.suspendLooseCurrentThread s fallback runnableThreadsEmpty) = some next) : Fine next s := by
  simp only [step,Option.ite_none_right_eq_some,Option.some.injEq,State.keyFree,decide_eq_true_eq] at stepped
  obtain ⟨⟨entering,handlers,key⟩,rfl⟩ := stepped
  have free := free_of_none key
  have nobody := nobody_of_stopped fine free (fine.placed.entering entering)
  refine fine_of_suspendLoose fine free (by simp [Undisturbed,handlers]) rfl (fun other running => absurd running (nobody other))
    ?_ (.inl ?_)
  · rw [onThread_self]
    exact ⟨rfl,rfl,rfl,rfl,rfl,rfl⟩
  · rw [onThread_self]
    exact ⟨rfl,rfl⟩

private theorem onVexExit_fine (fine : Fine state s) (fits : Fits state (.onVexExit s))
    (stepped : step state (.onVexExit s) = some next) : Fine next s := by
  simp only [step,Option.ite_none_right_eq_some,Option.some.injEq] at stepped
  obtain ⟨leaves,rfl⟩ := stepped
  have here : Undisturbed (state.threads s) ∧ ((state.threads s).place = .outside ∨ (state.threads s).place = .inVex) := by
    rcases leaves with ⟨inVex,-⟩ | runs
    · exact ⟨undisturbed_of_inside fine (by simp [inVex]),.inr inVex⟩
    · simp only [State.runsCode,decide_eq_true_eq] at runs
      exact ⟨by simp [Undisturbed,runs.2],.inl runs.1⟩
  exact fine_of_moves fine (free_of_mayUnlock fits.1) here.1 ⟨rfl,rfl,rfl,rfl,rfl,rfl⟩ rfl rfl here.2 (.inl ⟨rfl,fits.2⟩)

private theorem returnFromBlock_fine (fine : Fine state s)
    (stepped : step state (.returnFromBlock s) = some next) : Fine next s := by
  simp only [step,Option.ite_none_right_eq_some,Option.some.injEq,State.keyFree,decide_eq_true_eq] at stepped
  obtain ⟨⟨blocked,awake,key⟩,rfl⟩ := stepped
  refine fine_of_calm fine (free_of_none key) (undisturbed_of_inside fine (by simp [blocked])) rfl ?_ ?_ ?_ ?_
    (.inl ⟨fine.awake (.inl ⟨blocked,awake⟩),?_⟩)
  all_goals rw [onThread_self]
  · exact ⟨rfl,rfl,rfl,rfl,rfl,rfl⟩
  · exact fun _ => rfl
  · exact fun entering => by cases entering
  · exact fun _ _ outside => by cases outside
  · exact fun steady => absurd rfl steady.2.1

private theorem setRunningThread_fine (fine : Fine state s)
    (stepped : step state (.setRunningThread s) = some next) : Fine next s := by
  simp only [step,Option.ite_none_right_eq_some] at stepped
  obtain ⟨resuming,stepped⟩ := stepped
  obtain ⟨manager,-,rfl⟩ := Option.map_eq_some_iff.mp stepped
  have nobody := fine.awake (.inr resuming)
  refine fine_of_setRunningThread fine (free_of_inside fine (.inr resuming)) (undisturbed_of_inside fine (by simp [resuming])) rfl
    (fun other running => absurd running (nobody other)) ?_ (.inl ?_)
  · rw [onThread_self]
    exact ⟨rfl,rfl,rfl,rfl,rfl,rfl⟩
  · rw [onThread_self]
    exact ⟨rfl,fine.placed.inside (.inr resuming)⟩

private theorem step_own {event : Event Thread} (fine : Fine state event.thread) (fits : Fits state event)
    (stepped : step state event = some next) : Fine next event.thread := by
  cases event with
  | suspendRunningResumeNext manager s =>
    simp only [step,Option.ite_none_right_eq_some,Option.some.injEq] at stepped
    obtain ⟨⟨idle,-⟩,rfl⟩ := stepped
    refine fine_of_untouched fine (setActivity_untouched ?_ ?_)
    · simp [idle,Activity.dealsWith]
    · simp [Activity.dealsWith]
  | suspendThread manager s => exact suspendThread_fine fine stepped
  | suspendThreadTimesOut manager s =>
    simp only [step,Option.ite_none_right_eq_some,Option.some.injEq] at stepped
    obtain ⟨⟨suspends,-⟩,rfl⟩ := stepped
    refine fine_of_untouched (fine_of_timedOut fine suspends fits) (setActivity_untouched ?_ ?_)
    · rw [State.onThread,unset_schedulers,suspends]
      simp [Activity.dealsWith]
    · simp [Activity.dealsWith]
  | setNativeWaiting manager s => exact setNativeWaiting_fine fine fits stepped
  | getSuspendingThreadIntention manager s =>
    simp only [step,Option.ite_none_right_eq_some] at stepped
    obtain ⟨awaits,stepped⟩ := stepped
    obtain ⟨intention,flag,read⟩ := Option.bind_eq_some_iff.mp stepped
    obtain ⟨middle,asked,rfl⟩ := Option.map_eq_some_iff.mp read
    obtain ⟨handshake,reads,rfl⟩ := Option.map_eq_some_iff.mp asked
    exact fine_of_read fine awaits flag reads
  | isSignalledThreadGoingToSuspend manager s =>
    simp only [step] at stepped
    split at stepped
    · next signalled intention answered =>
      simp only [Option.ite_none_right_eq_some,Option.some.injEq] at stepped
      obtain ⟨rfl,rfl⟩ := stepped
      exact fine_of_processed fine answered
    · cases stepped
  | unlockShareResourceAccessKey manager s =>
    simp only [step,Option.ite_none_right_eq_some] at stepped
    obtain ⟨releases,stepped⟩ := stepped
    obtain ⟨middle,asked,rfl⟩ := Option.map_eq_some_iff.mp stepped
    obtain ⟨handshake,unlocks,rfl⟩ := Option.map_eq_some_iff.mp asked
    simp only [IntentionHandshake.step,Option.ite_none_right_eq_some,Option.some.injEq] at unlocks
    obtain ⟨-,rfl⟩ := unlocks
    exact fine_of_unlocked fine releases
  | continueThread manager s => exact continueThread_fine fine stepped
  | pollNativeWaitingThreads s => exact pollNativeWaitingThreads_fine fine stepped
  | deliver s => exact deliver_fine fine fits stepped
  | proceed s blocked =>
    change Fine state s at fine
    show Fine next s
    simp only [step,Option.ite_none_right_eq_some] at stepped
    obtain ⟨place,stepped⟩ := stepped
    obtain ⟨handshake,proceeds,rfl⟩ := Option.map_eq_some_iff.mp stepped
    exact fine_of_proceed fine place fits.1 fits.2 proceeds
  | notifySchedulerForIntention s intention =>
    change Fine state s at fine
    show Fine next s
    simp only [step,Option.ite_none_right_eq_some] at stepped
    obtain ⟨⟨place,answers,-⟩,stepped⟩ := stepped
    obtain ⟨handshake,notifies,rfl⟩ := Option.map_eq_some_iff.mp stepped
    exact fine_of_notified fine place answers notifies
  | leaveNativeWaiting s fallback runnableThreadsEmpty =>
    change Fine state s at fine
    show Fine next s
    simp only [step,Option.ite_none_right_eq_some,Option.some.injEq] at stepped
    obtain ⟨⟨place,leaves⟩,rfl⟩ := stepped
    have free := free_of_mayUnlock fits.1
    exact fine_of_suspendLoose fine free (undisturbed_of_leaving fine leaves) rfl (onlyOn_managerFor fine free)
      ⟨rfl,rfl,rfl,rfl,rfl,rfl⟩ (.inr ⟨place,fits.2⟩)
  | setInSystemCall s =>
    change Fine state s at fine
    show Fine next s
    simp only [step,Option.ite_none_right_eq_some,Option.some.injEq] at stepped
    obtain ⟨⟨-,-,running⟩,rfl⟩ := stepped
    exact fine_of_newState fine running rfl
  | onThreadSpawn manager s => exact onThreadSpawn_fine fine stepped
  | onVexEntry s =>
    change Fine state s at fine
    show Fine next s
    simp only [step,Option.ite_none_right_eq_some,Option.some.injEq,State.runsCode,State.keyFree,decide_eq_true_eq] at stepped
    obtain ⟨⟨⟨place,handlers⟩,key,-⟩,rfl⟩ := stepped
    exact fine_of_moves fine (free_of_none key) (by simp [Undisturbed,handlers]) ⟨rfl,rfl,rfl,rfl,rfl,rfl⟩ rfl rfl (.inl place)
      (.inr ⟨rfl,rfl⟩)
  | ensureThreadIsNotInNativeWaitingStateWhenEnteringVex s =>
    exact ensureThreadIsNotInNativeWaitingStateWhenEnteringVex_fine fine stepped
  | suspendLooseCurrentThread s fallback runnableThreadsEmpty => exact suspendLooseCurrentThread_fine fine stepped
  | call s fallback call =>
    change Fine state s at fine
    show Fine next s
    simp only [step,Option.ite_none_right_eq_some,Option.some.injEq] at stepped
    obtain ⟨⟨inVex,-,allowed⟩,rfl⟩ := stepped
    exact fine_of_call fine inVex allowed fits
  | onVexExit s => exact onVexExit_fine fine fits stepped
  | returnFromBlock s => exact returnFromBlock_fine fine stepped
  | setRunningThread s => exact setRunningThread_fine fine stepped
  | interruptThread s =>
    change Fine state s at fine
    show Fine next s
    simp only [step,Option.ite_none_right_eq_some,Option.some.injEq] at stepped
    obtain ⟨waiting,rfl⟩ := stepped
    have stopped : (state.threads s).isRunning = false := by simp [ThreadState.isRunning,waiting]
    exact fine_of_wakes fine (leaves_of_stopped fine stopped) rfl rfl rfl rfl rfl
  | onLocklessReleasingLock s =>
    change Fine state s at fine
    show Fine next s
    simp only [step,Option.ite_none_right_eq_some,Option.some.injEq] at stepped
    obtain ⟨-,rfl⟩ := stepped
    exact fine_of_wakes fine (leaves_of_idle fine fits) rfl rfl rfl rfl rfl
  | onWrappedWaitingInterrupt s =>
    change Fine state s at fine
    show Fine next s
    simp only [step,Option.ite_none_right_eq_some,Option.some.injEq] at stepped
    obtain ⟨-,rfl⟩ := stepped
    exact fine_of_wakes fine (leaves_of_idle fine fits) rfl rfl rfl rfl rfl

/-! ## Runs -/

private theorem fine_initial (s : Thread) : Fine (initial Thread) s := by
  constructor
  all_goals simp [initial,IntentionHandshake.initial,Leaving]
  · exact IntentionHandshake.invariant_initial
  · exact ⟨by simp,by simp,by simp,by simp [ThreadState.handlers,IntentionHandshake.initial],
      by simp [ThreadState.handlers,IntentionHandshake.initial],by simp⟩
  · simp [ThreadState.manager,IntentionHandshake.initial]

/-- Every step of an expected kind keeps all threads in order. -/
private theorem step_fine {event : Event Thread} (fine : ∀ s, Fine state s) (fits : Fits state event)
    (stepped : step state event = some next) (s : Thread) : Fine next s := by
  by_cases own : s = event.thread
  · rw [own]
    exact step_own (fine _) fits stepped
  · exact fine_of_untouched (fine s) (step_untouched (fine _) own stepped)

/-- A thread that executes its own code runs on the core of its manager. -/
private theorem running_of_executes (fine : Fine state s) (executes : Executes state manager s) :
    state.runningThread manager = some s := by
  obtain ⟨runs,isRunning,controlled⟩ := executes
  simp only [State.runsCode,decide_eq_true_eq] at runs
  have steady : Steady (state.threads s) := by simp [Steady,runs.1,runs.2]
  have present : (state.threads s).timedOut = 0 := by
    by_contra some
    exact fine.placed.timedOut some isRunning runs.1
  exact fine.works steady isRunning present manager controlled

private theorem oneRunning_of_fine (fine : ∀ s, Fine state s) : OneRunning state where
  once s := (fine s).once
  home manager s unasked running := by
    refine (((fine s).home manager running).resolve_left fun ⟨intention,_,deals⟩ => unasked ⟨manager,?_⟩).2
    exact deals.imp (fun awaits => awaits.1) fun answered => ⟨intention,answered⟩
  alone manager first second firstExecutes secondExecutes := by
    have firstRuns := running_of_executes (fine first) firstExecutes
    have secondRuns := running_of_executes (fine second) secondExecutes
    exact Option.some.inj (firstRuns.symm.trans secondRuns)

end Invariant

instance (state : State Thread) (s : Thread) : Decidable (Idle state s) := inferInstanceAs (Decidable (_ = true))

instance (state : State Thread) : (event : Event Thread) → Decidable (Fits state event)
  | .suspendThreadTimesOut _ s => inferInstanceAs (Decidable ((state.threads s).place ≠ .outside))
  | .setNativeWaiting _ s | .onLocklessReleasingLock s | .onWrappedWaitingInterrupt s | .call s _ .onWrappedTimedWaitingEnd =>
    inferInstanceAs (Decidable (Idle state s))
  | .deliver s => inferInstanceAs (Decidable ((state.threads s).place = .outside ∧
      ∀ handler ∈ (state.threads s).handlers, handler.position ≠ .becomesNativeWaiting))
  | .proceed s blocked => inferInstanceAs (Decidable
      (IntentionHandshake.Expected (state.threads s).handshake (.proceed blocked) ∧
        ((state.threads s).place = .inVex → (state.threads s).timedOut = 0)))
  | .leaveNativeWaiting s _ _ => inferInstanceAs (Decidable
      (IntentionHandshake.MayUnlock (state.threads s).handshake .thread ∧ (state.threads s).timedOut = 0))
  | .onVexExit s => inferInstanceAs (Decidable (IntentionHandshake.MayUnlock (state.threads s).handshake .thread ∧
      ((state.threads s).place = .inVex → (state.threads s).timedOut = 0)))
  | .suspendRunningResumeNext _ _ | .suspendThread _ _ | .getSuspendingThreadIntention _ _
  | .isSignalledThreadGoingToSuspend _ _ | .unlockShareResourceAccessKey _ _ | .continueThread _ _
  | .pollNativeWaitingThreads _ | .notifySchedulerForIntention _ _ | .setInSystemCall _ | .onThreadSpawn _ _ | .onVexEntry _
  | .ensureThreadIsNotInNativeWaitingStateWhenEnteringVex _ | .suspendLooseCurrentThread _ _ _ | .returnFromBlock _
  | .setRunningThread _ | .interruptThread _ => inferInstanceAs (Decidable True)
  | .call _ _ (.suspendCurrentThread _) | .call _ _ (.suspendLooseCurrentThread _) | .call _ _ .onReplacedWaiting
  | .call _ _ .onLocklessRequestingLock | .call _ _ .onReplacedTimedWaiting | .call _ _ .onWrappedWaitingStart
  | .call _ _ .onWrappedTimedWaitingStart | .call _ _ (.setIoThread _) | .call _ _ .setSystemCallThread
  | .call _ _ .onCachedIoEnd | .call _ _ .onThreadEnd => inferInstanceAs (Decidable True)

private def spawnRun (manager s : Nat) : List (Event Nat) :=
  [.onThreadSpawn manager s,.call s 0 (.suspendCurrentThread false),.onVexExit s]

/-- A scheduler's request and the answer of a thread that executes its own code. -/
private def ask (manager s : Nat) (intention : Intention) : List (Event Nat) :=
  [.suspendRunningResumeNext manager s,.suspendThread manager s,.deliver s,.proceed s true,.proceed s true,.proceed s true,
    .notifySchedulerForIntention s intention,.getSuspendingThreadIntention manager s,.isSignalledThreadGoingToSuspend manager s,
    .unlockShareResourceAccessKey manager s]

private def resume (manager s : Nat) : List (Event Nat) := [.continueThread manager s,.returnFromBlock s,.setRunningThread s]

/-- Thread 1 is suspended by manager 0 and resumed by both managers; thread 2 keeps on running under
    manager 1, then goes into native waiting, leaves it and is resumed. -/
private def busy : List (Event Nat) :=
  spawnRun 0 1 ++ spawnRun 1 2 ++ ask 0 1 .toBeSuspended ++ ask 1 2 .toKeepOnRunning ++ resume 1 1 ++ resume 0 1 ++
    [.onVexExit 1,.proceed 1 true] ++ ask 1 2 .toBeDisregarded ++ [.proceed 2 true,.pollNativeWaitingThreads 2,.deliver 2,
    .proceed 2 true,.proceed 2 false,.leaveNativeWaiting 2 1 false] ++ resume 0 2 ++ resume 1 2 ++ [.proceed 2 true]

/-- After a timed park that was resumed, the thread finds a permit, and the end of that park still takes
    the old timeout for its own. -/
private def staleTimeout : List (Event Nat) :=
  spawnRun 0 1 ++ [.onVexEntry 1,.call 1 0 .onWrappedTimedWaitingStart,.onVexExit 1,.onVexEntry 1,.call 1 0 .onWrappedTimedWaitingEnd] ++
    resume 0 1 ++ [.onVexExit 1,.onVexEntry 1,.onVexExit 1,.onVexEntry 1,.call 1 0 .onWrappedTimedWaitingEnd]

/-- The poll of a native waiting thread reaches it on its way into VEX: both take it out of native waiting. -/
private def latePoll : List (Event Nat) :=
  spawnRun 0 1 ++ ask 0 1 .toBeDisregarded ++ [.proceed 1 true,.pollNativeWaitingThreads 1,
    .ensureThreadIsNotInNativeWaitingStateWhenEnteringVex 1,.deliver 1,.proceed 1 true,.proceed 1 false,.leaveNativeWaiting 1 0 false] ++
    resume 1 1 ++ [.proceed 1 true,.suspendLooseCurrentThread 1 0 true]

end Vexjine.RunningThreads
