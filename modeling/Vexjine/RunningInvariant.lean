import Vexjine.RunningThreads

/-!
# The threads on the managers' cores

What holds of a thread, of the requests to it and of the cores on which it runs,
whatever the others do; which steps leave that alone; and the two outcomes of a
call of the thread's manager: it has its core, or nothing to do with any.
-/

namespace Vexjine.RunningThreads
open IntentionHandshake (Intention Handler)
set_option linter.unusedSimpArgs false
set_option linter.unusedSectionVars false

variable {Thread : Type} [DecidableEq Thread]

/-! ## The invariant -/

/-- The thread neither blocks nor is on its way into native waiting. -/
def Steady (thread : ThreadState) : Prop :=
  thread.place ≠ .blocked ∧ thread.place ≠ .resuming ∧
    ∀ handler ∈ thread.handlers, handler.position ≠ .becomesNativeWaiting

/-- The thread has answered the manager that it leaves its core, and the answer is not processed. -/
def Leaving (state : State Thread) (manager : Nat) (s : Thread) : Prop :=
  ∃ intention, intention ≠ .toKeepOnRunning ∧
    (state.schedulers manager = .awaits s ∧ (state.threads s).handshake.suspendFlag = some intention ∨
      state.schedulers manager = .answered s intention)

/-- In VEX the thread holds its key; the signal handler has interrupted it outside, and no handler runs
    beside one that goes into native waiting. -/
structure Placed (thread : ThreadState) : Prop where
  inside : thread.place = .inVex ∨ thread.place = .resuming → thread.handshake.sharedAccessKey = some .thread
  entering : thread.place = .entering → thread.isRunning = false ∨ thread.manager = none
  outside : ∀ place ∈ thread.interrupted, place = .outside
  native : (∃ handler ∈ thread.handlers, handler.position = .becomesNativeWaiting) → thread.place = .outside
  last : ∀ handler ∈ thread.handlers.tail, handler.position ≠ .becomesNativeWaiting
  timedOut : thread.timedOut ≠ 0 → thread.isRunning = true → thread.place ≠ .outside

/-- The managers' running threads and schedulers agree with what the thread does. -/
structure Fine (state : State Thread) (s : Thread) : Prop where
  handshake : IntentionHandshake.Invariant (state.threads s).handshake
  placed : Placed (state.threads s)
  waits : ∀ manager, manager ∈ (state.threads s).handshake.waiting ↔ state.schedulers manager = .awaits s
  holds : ∀ manager, (state.schedulers manager = .releases s ∨ ∃ intention, state.schedulers manager = .answered s intention) →
    (state.threads s).handshake.sharedAccessKey = some (.scheduler manager)
  asked : ∀ manager, (state.schedulers manager = .awaits s ∨ ∃ intention, state.schedulers manager = .answered s intention) →
    state.runningThread manager = some s
  once : ∀ first second, state.runningThread first = some s → state.runningThread second = some s → first = second
  home : ∀ manager, state.runningThread manager = some s → Leaving state manager s ∨
    Steady (state.threads s) ∧ (state.threads s).isRunning = true ∧ (state.threads s).manager = some manager
  disregarded : ∀ manager, (state.schedulers manager = .awaits s ∧
      (state.threads s).handshake.suspendFlag = some .toBeDisregarded ∨
        state.schedulers manager = .answered s .toBeDisregarded) →
    Steady (state.threads s) → (state.threads s).isRunning = false
  awake : ((state.threads s).place = .blocked ∧ (state.threads s).awaken = true ∨ (state.threads s).place = .resuming) →
    ∀ manager, state.runningThread manager ≠ some s
  works : Steady (state.threads s) → (state.threads s).isRunning = true → (state.threads s).timedOut = 0 →
    ∀ manager, (state.threads s).manager = some manager → state.runningThread manager = some s

section Invariant
variable {state next last : State Thread} {s b : Thread} {manager : Nat} {thread : ThreadState}

/-! ### What a step leaves alone -/

/-- The activity matters to the invariant of the thread. -/
def Activity.dealsWith (activity : Activity Thread) (s : Thread) : Prop :=
  activity = .awaits s ∨ activity = .releases s ∨ ∃ intention, activity = .answered s intention

/-- The step leaves a thread, the cores on which it runs and the requests to it as they were. -/
structure Untouched (b : Thread) (state next : State Thread) : Prop where
  thread : next.threads b = state.threads b
  core : ∀ manager, next.runningThread manager = some b ↔ state.runningThread manager = some b
  activity : ∀ manager (activity : Activity Thread), activity.dealsWith b →
    (next.schedulers manager = activity ↔ state.schedulers manager = activity)

theorem Untouched.refl (b : Thread) (state : State Thread) : Untouched b state state :=
  ⟨rfl,fun _ => Iff.rfl,fun _ _ _ => Iff.rfl⟩

theorem Untouched.trans (first : Untouched b state next) (second : Untouched b next last) : Untouched b state last where
  thread := second.thread.trans first.thread
  core manager := (second.core manager).trans (first.core manager)
  activity manager activity deals := (second.activity manager activity deals).trans (first.activity manager activity deals)

theorem fine_of_untouched (fine : Fine state b) (untouched : Untouched b state next) : Fine next b := by
  have awaits : ∀ manager, next.schedulers manager = .awaits b ↔ state.schedulers manager = .awaits b :=
    fun manager => untouched.activity manager _ (.inl rfl)
  have releases : ∀ manager, next.schedulers manager = .releases b ↔ state.schedulers manager = .releases b :=
    fun manager => untouched.activity manager _ (.inr (.inl rfl))
  have answered : ∀ manager intention,
      next.schedulers manager = .answered b intention ↔ state.schedulers manager = .answered b intention :=
    fun manager intention => untouched.activity manager _ (.inr (.inr ⟨intention,rfl⟩))
  obtain ⟨handshake,placed,waits,holds,asked,once,home,disregarded,awake,works⟩ := fine
  constructor <;> simp only [untouched.thread,Leaving,awaits,releases,answered,untouched.core,Ne] <;> assumption

private theorem onThread_untouched (change : ThreadState → ThreadState) (other : b ≠ s) :
    Untouched b state (state.onThread s change) :=
  ⟨by simp [State.onThread,other],fun _ => Iff.rfl,fun _ _ _ => Iff.rfl⟩

/-- Of a core that is idle, or on which the thread runs. -/
private theorem setRunning_untouched {running : Option Thread} (before : state.runningThread manager ≠ some b)
    (after : running ≠ some b) : Untouched b state (state.setRunning manager running) := by
  refine ⟨rfl,fun other => ?_,fun _ _ _ => Iff.rfl⟩
  by_cases same : other = manager
  · subst same
    simp [State.setRunning,before,after]
  · simp [State.setRunning,same]

theorem setActivity_untouched {activity : Activity Thread} (before : ¬ (state.schedulers manager).dealsWith b)
    (after : ¬ activity.dealsWith b) : Untouched b state (state.setActivity manager activity) := by
  refine ⟨rfl,fun _ => Iff.rfl,fun other mine deals => ?_⟩
  by_cases same : other = manager
  · subst same
    simp only [State.setActivity,Function.update_self]
    exact ⟨fun equal => absurd (equal ▸ deals) after,fun equal => absurd (equal ▸ deals) before⟩
  · simp [State.setActivity,same]

private theorem unset_untouched (other : b ≠ s) : Untouched b state (state.unsetCurrentThreadFromRunningThread manager s) := by
  unfold State.unsetCurrentThreadFromRunningThread
  split
  · next running => exact setRunning_untouched (by rw [running]; simpa using Ne.symm other) (by simp)
  · exact .refl b state

private theorem setRunningThread_untouched (other : b ≠ s) : Untouched b state (state.setRunningThread manager s) := by
  have awake : Untouched b state (state.onThread s fun thread => thread.setAwaken false) := onThread_untouched _ other
  unfold State.setRunningThread State.changeThreadStateToRunning
  dsimp only
  split_ifs with another
  · exact awake.trans ((unset_untouched other).trans ((onThread_untouched _ other).trans (onThread_untouched _ other)))
  · refine awake.trans ((onThread_untouched _ other).trans (setRunning_untouched (fun running => another ?_) ?_))
    · have running : state.runningThread manager = some b := running
      simp [State.anotherThreadAlreadySetRunning,State.onThread,running,other]
    · simpa using Ne.symm other

private theorem suspend_untouched (other : b ≠ s) :
    Untouched b state ((state.setSuspendedAndPushToRunnables manager s).blockCurrentThread s) :=
  (unset_untouched other).trans ((onThread_untouched _ other).trans (onThread_untouched _ other))

private theorem suspendLoose_untouched {runnableThreadsEmpty : Bool} (other : b ≠ s) :
    Untouched b state (state.suspendLooseCurrentThread manager s runnableThreadsEmpty) := by
  refine (onThread_untouched ThreadState.unsetNativeWaiting other).trans ?_
  unfold State.suspendLooseCurrentThread
  dsimp only
  split_ifs
  · exact setRunningThread_untouched other
  · exact suspend_untouched other

private theorem suspendCurrentThread_untouched {suspends : Bool} (other : b ≠ s) :
    Untouched b state (state.suspendCurrentThread manager s suspends) := by
  unfold State.suspendCurrentThread
  split_ifs
  · exact suspend_untouched other
  · exact .refl b state
  · exact setRunningThread_untouched other

private theorem call_untouched {call : Call} (other : b ≠ s) : Untouched b state (state.call manager s call) := by
  cases call with
  | suspendCurrentThread suspends => exact suspendCurrentThread_untouched other
  | suspendLooseCurrentThread runnableThreadsEmpty => exact suspendLoose_untouched other
  | onReplacedWaiting | onReplacedTimedWaiting =>
    exact (onThread_untouched _ other).trans ((unset_untouched other).trans (onThread_untouched _ other))
  | onLocklessRequestingLock => exact (unset_untouched other).trans (onThread_untouched _ other)
  | setIoThread learning =>
    unfold State.call
    exact (unset_untouched other).trans (onThread_untouched _ other)
  | onWrappedWaitingStart | onWrappedTimedWaitingStart | onThreadEnd =>
    exact (onThread_untouched _ other).trans (unset_untouched other)
  | onWrappedTimedWaitingEnd => exact (onThread_untouched _ other).trans (onThread_untouched _ other)
  | setSystemCallThread | onCachedIoEnd =>
    unfold State.call
    exact onThread_untouched _ other

private theorem handshake_untouched {event : IntentionHandshake.Event} {change : ThreadState → ThreadState} (other : b ≠ s)
    (stepped : state.handshake s event change = some next) : Untouched b state next := by
  obtain ⟨handshake,-,rfl⟩ := Option.map_eq_some_iff.mp stepped
  exact onThread_untouched _ other

private theorem process_untouched {intention : Intention} (other : b ≠ s) (running : state.runningThread manager = some s) :
    Untouched b state (state.process manager s intention) := by
  cases intention with
  | toBeSuspended => exact (unset_untouched other).trans (onThread_untouched _ other)
  | toBeDisregarded => exact unset_untouched other
  | toKeepOnRunning =>
    unfold State.process
    refine (setRunning_untouched ?_ ?_).trans (onThread_untouched _ other)
    · rw [running]
      simpa using Ne.symm other
    · simpa using Ne.symm other

/-- The step says only of its own thread something new. -/
theorem step_untouched {event : Event Thread} (fine : Fine state event.thread) (other : b ≠ event.thread)
    (stepped : step state event = some next) : Untouched b state next := by
  have deals : ∀ {manager : Nat} {activity after : Activity Thread}, state.schedulers manager = activity →
      ¬ activity.dealsWith b → ¬ after.dealsWith b → ∀ {middle : State Thread}, Untouched b state middle →
      middle.schedulers = state.schedulers → Untouched b state (middle.setActivity manager after) := by
    intro manager activity after before idle free middle untouched same
    exact untouched.trans (setActivity_untouched (by rw [same,before]; exact idle) free)
  cases event with
  | suspendRunningResumeNext manager s =>
    simp only [step,Option.ite_none_right_eq_some,Option.some.injEq] at stepped
    obtain ⟨⟨idle,-⟩,rfl⟩ := stepped
    exact deals idle (by simp [Activity.dealsWith]) (by simp [Activity.dealsWith]) (.refl b state) rfl
  | suspendThread manager s =>
    change b ≠ s at other
    simp only [step,Option.ite_none_right_eq_some] at stepped
    obtain ⟨⟨suspends,-⟩,stepped⟩ := stepped
    split at stepped
    · obtain ⟨middle,asked,rfl⟩ := Option.map_eq_some_iff.mp stepped
      obtain ⟨handshake,-,rfl⟩ := Option.map_eq_some_iff.mp asked
      refine deals suspends (by simp [Activity.dealsWith]) ?_ (onThread_untouched _ other) rfl
      simpa [Activity.dealsWith] using Ne.symm other
    · cases stepped
      exact deals suspends (by simp [Activity.dealsWith]) (by simp [Activity.dealsWith]) (.refl b state) rfl
  | suspendThreadTimesOut manager s =>
    simp only [step,Option.ite_none_right_eq_some,Option.some.injEq] at stepped
    obtain ⟨⟨suspends,-⟩,rfl⟩ := stepped
    refine deals suspends (by simp [Activity.dealsWith]) (by simp [Activity.dealsWith])
      ((unset_untouched other).trans (onThread_untouched _ other)) ?_
    unfold State.unsetCurrentThreadFromRunningThread
    split <;> rfl
  | setNativeWaiting manager s =>
    simp only [step,Option.ite_none_right_eq_some,Option.some.injEq] at stepped
    obtain ⟨timedOut,rfl⟩ := stepped
    exact deals timedOut (by simp [Activity.dealsWith]) (by simp [Activity.dealsWith]) (onThread_untouched _ other) rfl
  | getSuspendingThreadIntention manager s =>
    change b ≠ s at other
    simp only [step,Option.ite_none_right_eq_some] at stepped
    obtain ⟨awaits,stepped⟩ := stepped
    obtain ⟨intention,-,read⟩ := Option.bind_eq_some_iff.mp stepped
    obtain ⟨middle,asked,rfl⟩ := Option.map_eq_some_iff.mp read
    obtain ⟨handshake,-,rfl⟩ := Option.map_eq_some_iff.mp asked
    refine deals awaits ?_ ?_ (onThread_untouched _ other) rfl
    · simpa [Activity.dealsWith] using Ne.symm other
    · simpa [Activity.dealsWith] using Ne.symm other
  | isSignalledThreadGoingToSuspend manager s =>
    change b ≠ s at other
    simp only [step] at stepped
    split at stepped
    · next signalled intention answered =>
      simp only [Option.ite_none_right_eq_some,Option.some.injEq] at stepped
      obtain ⟨rfl,rfl⟩ := stepped
      have running := fine.asked manager (.inr ⟨intention,answered⟩)
      refine deals answered ?_ ?_ (process_untouched other running) ?_
      · simpa [Activity.dealsWith] using Ne.symm other
      · simpa [Activity.dealsWith] using Ne.symm other
      · cases intention <;> simp only [State.process,State.unsetCurrentThreadFromRunningThread] <;> (try split) <;> rfl
    · cases stepped
  | unlockShareResourceAccessKey manager s =>
    change b ≠ s at other
    simp only [step,Option.ite_none_right_eq_some] at stepped
    obtain ⟨releases,stepped⟩ := stepped
    obtain ⟨middle,asked,rfl⟩ := Option.map_eq_some_iff.mp stepped
    obtain ⟨handshake,-,rfl⟩ := Option.map_eq_some_iff.mp asked
    refine deals releases ?_ (by simp [Activity.dealsWith]) (onThread_untouched _ other) rfl
    simpa [Activity.dealsWith] using Ne.symm other
  | pollNativeWaitingThreads s | deliver s =>
    change b ≠ s at other
    simp only [step] at stepped
    exact handshake_untouched other stepped
  | proceed s blocked | notifySchedulerForIntention s intention =>
    simp only [step,Option.ite_none_right_eq_some] at stepped
    exact handshake_untouched other stepped.2
  | leaveNativeWaiting s fallback runnableThreadsEmpty =>
    simp only [step,Option.ite_none_right_eq_some,Option.some.injEq] at stepped
    obtain ⟨-,rfl⟩ := stepped
    exact suspendLoose_untouched other
  | suspendLooseCurrentThread s fallback runnableThreadsEmpty =>
    simp only [step,Option.ite_none_right_eq_some,Option.some.injEq] at stepped
    obtain ⟨-,rfl⟩ := stepped
    exact (onThread_untouched _ other).trans (suspendLoose_untouched other)
  | call s fallback call =>
    simp only [step,Option.ite_none_right_eq_some,Option.some.injEq] at stepped
    obtain ⟨-,rfl⟩ := stepped
    exact call_untouched other
  | setRunningThread s =>
    simp only [step,Option.ite_none_right_eq_some] at stepped
    obtain ⟨manager,-,rfl⟩ := Option.map_eq_some_iff.mp stepped.2
    exact (onThread_untouched _ other).trans (setRunningThread_untouched other)
  | continueThread _ s | setInSystemCall s | onThreadSpawn _ s | onVexEntry s
  | ensureThreadIsNotInNativeWaitingStateWhenEnteringVex s | onVexExit s | returnFromBlock s | interruptThread s
  | onLocklessReleasingLock s | onWrappedWaitingInterrupt s =>
    simp only [step,Option.ite_none_right_eq_some,Option.some.injEq] at stepped
    obtain ⟨-,rfl⟩ := stepped
    exact onThread_untouched _ other

/-! ### Steps that leave the requests to the thread alone -/

@[simp] theorem onThread_self (change : ThreadState → ThreadState) :
    (state.onThread s change).threads s = change (state.threads s) := by simp [State.onThread]

/-- Who waits for an answer of the thread, the answer, and the key of a scheduler. -/
structure SameRequests (before after : IntentionHandshake.State) : Prop where
  waiting : after.waiting = before.waiting
  suspendFlag : after.suspendFlag = before.suspendFlag
  key : ∀ manager, before.sharedAccessKey = some (.scheduler manager) → after.sharedAccessKey = some (.scheduler manager)

/-- A change that the running threads and the schedulers need not see. -/
theorem fine_of_same {change : ThreadState → ThreadState} (fine : Fine state s)
    (inv : IntentionHandshake.Invariant (change (state.threads s)).handshake) (placed : Placed (change (state.threads s)))
    (same : SameRequests (state.threads s).handshake (change (state.threads s)).handshake)
    (running : (change (state.threads s)).isRunning = (state.threads s).isRunning)
    (manager : (change (state.threads s)).manager = (state.threads s).manager)
    (timedOut : (change (state.threads s)).timedOut = (state.threads s).timedOut)
    (steady : Steady (change (state.threads s)) ↔ Steady (state.threads s))
    (awake : (change (state.threads s)).place = .blocked ∧ (change (state.threads s)).awaken = true ∨
        (change (state.threads s)).place = .resuming →
      (state.threads s).place = .blocked ∧ (state.threads s).awaken = true ∨ (state.threads s).place = .resuming) :
    Fine (state.onThread s change) s where
  handshake := by rwa [onThread_self]
  placed := by rwa [onThread_self]
  waits := by
    rw [onThread_self,same.waiting]
    exact fine.waits
  holds manager deals := by
    rw [onThread_self]
    exact same.key manager (fine.holds manager deals)
  asked := fine.asked
  once := fine.once
  home := by
    simp only [Leaving,onThread_self,same.suspendFlag,running,manager,steady]
    exact fine.home
  disregarded := by
    simp only [onThread_self,same.suspendFlag,running,steady]
    exact fine.disregarded
  awake := by
    rw [onThread_self]
    exact fun wakes => fine.awake (awake wakes)
  works := by
    simp only [onThread_self,running,manager,timedOut,steady]
    exact fine.works

/-- A change after which the thread does not run; where it is a running thread, it has been asked to leave. -/
theorem fine_of_stopped {change : ThreadState → ThreadState} (fine : Fine state s)
    (inv : IntentionHandshake.Invariant (change (state.threads s)).handshake) (placed : Placed (change (state.threads s)))
    (same : SameRequests (state.threads s).handshake (change (state.threads s)).handshake)
    (stopped : (change (state.threads s)).isRunning = false)
    (leaves : ∀ manager, state.runningThread manager = some s → Leaving state manager s)
    (awake : (change (state.threads s)).place = .blocked ∧ (change (state.threads s)).awaken = true ∨
        (change (state.threads s)).place = .resuming →
      (state.threads s).place = .blocked ∧ (state.threads s).awaken = true ∨ (state.threads s).place = .resuming) :
    Fine (state.onThread s change) s where
  handshake := by rwa [onThread_self]
  placed := by rwa [onThread_self]
  waits := by
    rw [onThread_self,same.waiting]
    exact fine.waits
  holds manager deals := by
    rw [onThread_self]
    exact same.key manager (fine.holds manager deals)
  asked := fine.asked
  once := fine.once
  home manager running := .inl (by
    simp only [Leaving,onThread_self,same.suspendFlag]
    exact leaves manager running)
  disregarded _ _ _ := by rwa [onThread_self]
  awake := by
    rw [onThread_self]
    exact fun wakes => fine.awake (awake wakes)
  works _ running := by simp [stopped] at running

/-- Between two changes of its answers, a running thread leaves its core only where it has said so. -/
theorem leaves_of_stopped (fine : Fine state s) (stopped : (state.threads s).isRunning = false) :
    ∀ manager, state.runningThread manager = some s → Leaving state manager s := fun manager running =>
  (fine.home manager running).resolve_right fun home => by simp [stopped] at home

theorem leaves_of_idle (fine : Fine state s) (idle : Idle state s) :
    ∀ manager, state.runningThread manager = some s → Leaving state manager s := by
  refine fun manager running => (fine.home manager running).resolve_right fun ⟨_,_,home⟩ => ?_
  simp [Idle,home,running] at idle

/-! ### Threads whose key no scheduler has -/

def Free (thread : ThreadState) : Prop :=
  ∀ manager, thread.handshake.sharedAccessKey ≠ some (.scheduler manager)

theorem free_of_none (key : (state.threads s).handshake.sharedAccessKey = none) : Free (state.threads s) := by
  simp [Free,key]

theorem free_of_inside (fine : Fine state s) (inside : (state.threads s).place = .inVex ∨ (state.threads s).place = .resuming) :
    Free (state.threads s) := by
  simp [Free,fine.placed.inside inside]

theorem free_of_mayUnlock (may : IntentionHandshake.MayUnlock (state.threads s).handshake .thread) :
    Free (state.threads s) := by
  intro manager held
  rcases may with free | mine
  · simp [free] at held
  · simp [mine] at held

theorem unheld (fine : Fine state s) (free : Free (state.threads s)) (manager : Nat) :
    ¬ (state.schedulers manager).dealsWith s := by
  rintro (awaits | releases | answered)
  · obtain nobody | ⟨other,-,held⟩ := fine.handshake.alone
    · have waits := (fine.waits manager).mpr awaits
      simp [nobody] at waits
    · exact free other held
  · exact free manager (fine.holds manager (.inl releases))
  · exact free manager (fine.holds manager (.inr answered))

theorem nobody_waits (fine : Fine state s) (free : Free (state.threads s)) :
    (state.threads s).handshake.waiting = [] :=
  fine.handshake.alone.resolve_right fun ⟨manager,_,held⟩ => free manager held

/-- A running thread to which no request is open runs on the core of its manager. -/
theorem settled (fine : Fine state s) (free : Free (state.threads s)) (running : state.runningThread manager = some s) :
    Steady (state.threads s) ∧ (state.threads s).isRunning = true ∧ (state.threads s).manager = some manager := by
  refine (fine.home manager running).resolve_left fun ⟨intention,_,deals⟩ => unheld fine free manager ?_
  rcases deals with ⟨awaits,-⟩ | answered
  · exact .inl awaits
  · exact .inr (.inr ⟨intention,answered⟩)

/-- The thread is nobody's running thread, and does nothing that a running thread would do. -/
structure Rests (state : State Thread) (s : Thread) : Prop where
  core : ∀ manager, state.runningThread manager ≠ some s
  waits : Steady (state.threads s) → (state.threads s).isRunning = true → (state.threads s).timedOut = 0 →
    (state.threads s).manager = none

/-- The thread runs, on the core of its manager alone. -/
structure Works (state : State Thread) (manager : Nat) (s : Thread) : Prop where
  core : ∀ other, state.runningThread other = some s ↔ other = manager
  steady : Steady (state.threads s)
  running : (state.threads s).isRunning = true
  controlled : (state.threads s).manager = some manager

theorem rests_or_works (fine : Fine state s) (free : Free (state.threads s)) :
    Rests state s ∨ ∃ manager, Works state manager s := by
  by_cases runs : ∃ manager, state.runningThread manager = some s
  · obtain ⟨manager,running⟩ := runs
    obtain ⟨steady,isRunning,controlled⟩ := settled fine free running
    exact .inr ⟨manager,fun other => ⟨fun also => fine.once other manager also running,fun same => same ▸ running⟩,steady,
      isRunning,controlled⟩
  · refine .inl ⟨fun manager running => runs ⟨manager,running⟩,fun steady isRunning timedOut => ?_⟩
    cases found : (state.threads s).manager with
    | none => rfl
    | some manager => exact absurd ⟨manager,fine.works steady isRunning timedOut manager found⟩ runs

/-- A step of a thread to which no request is open. -/
theorem fine_of_outcome (fine : Fine state s) (free : Free (state.threads s))
    (schedulers : next.schedulers = state.schedulers)
    (waiting : (next.threads s).handshake.waiting = (state.threads s).handshake.waiting)
    (flag : (next.threads s).handshake.suspendFlag = (state.threads s).handshake.suspendFlag)
    (owed : IntentionHandshake.owed (next.threads s).handshake = IntentionHandshake.owed (state.threads s).handshake)
    (asked : ∀ handler ∈ (next.threads s).handshake.handlers, handler ∈ (state.threads s).handshake.handlers)
    (placed : Placed (next.threads s)) (outcome : Rests next s ∨ ∃ manager, Works next manager s) : Fine next s := by
  have nobody := nobody_waits fine free
  have quiet : ∀ manager, ¬ (next.schedulers manager).dealsWith s := by
    rw [schedulers]
    exact unheld fine free
  have inv : IntentionHandshake.Invariant (next.threads s).handshake := by
    refine ⟨.inl (waiting.trans nobody),fun _ => flag.trans (fine.handshake.clear nobody),?_,fun handler member =>
      fine.handshake.asked handler (asked handler member)⟩
    rw [owed,waiting,flag]
    exact fine.handshake.owing
  have noRequest : ∀ manager, ¬ (next.schedulers manager = .awaits s ∨ ∃ intention, next.schedulers manager = .answered s intention) :=
    fun manager deals => quiet manager (deals.imp_right .inr)
  refine ⟨inv,placed,fun manager => ?_,fun manager deals => absurd (.inr deals) (quiet manager),
    fun manager deals => absurd deals (noRequest manager),?_,?_,fun manager deals => absurd ?_ (noRequest manager),?_,?_⟩
  · rw [waiting,nobody]
    exact ⟨fun member => absurd member List.not_mem_nil,fun awaits => absurd (.inl awaits) (noRequest manager)⟩
  · rcases outcome with rests | ⟨manager,works⟩
    · exact fun first second running => absurd running (rests.core first)
    · intro first second firstRuns secondRuns
      rw [(works.core first).mp firstRuns,(works.core second).mp secondRuns]
  · rcases outcome with rests | ⟨manager,works⟩
    · exact fun manager running => absurd running (rests.core manager)
    · intro other running
      obtain rfl := (works.core other).mp running
      exact .inr ⟨works.steady,works.running,works.controlled⟩
  · exact deals.imp (fun awaits => awaits.1) fun answered => ⟨_,answered⟩
  · rcases outcome with rests | ⟨manager,works⟩
    · exact fun _ => rests.core
    · rintro (⟨blocked,-⟩ | resuming)
      · exact absurd blocked works.steady.1
      · exact absurd resuming works.steady.2.1
  · rcases outcome with rests | ⟨manager,works⟩
    · intro steady running timedOut manager controlled
      rw [rests.waits steady running timedOut] at controlled
      cases controlled
    · intro _ _ _ other controlled
      rw [works.controlled,Option.some.injEq] at controlled
      exact (works.core other).mpr controlled.symm

/-! ### The thread's calls of its manager -/

/-- The thread runs on no other core. -/
private def OnlyOn (state : State Thread) (manager : Nat) (s : Thread) : Prop :=
  ∀ other, state.runningThread other = some s → other = manager

/-- The core on which the thread runs, if it runs, is the one of the manager that serves its calls. -/
theorem onlyOn_managerFor {fallback : Nat} (fine : Fine state s) (free : Free (state.threads s)) :
    OnlyOn state (state.managerFor s fallback) s := by
  intro other running
  obtain ⟨-,-,controlled⟩ := settled fine free running
  simp [State.managerFor,controlled]

theorem unset_threads : (state.unsetCurrentThreadFromRunningThread manager s).threads = state.threads := by
  unfold State.unsetCurrentThreadFromRunningThread
  split <;> rfl

theorem unset_schedulers : (state.unsetCurrentThreadFromRunningThread manager s).schedulers = state.schedulers := by
  unfold State.unsetCurrentThreadFromRunningThread
  split <;> rfl

theorem unset_leaves (only : OnlyOn state manager s) (other : Nat) :
    (state.unsetCurrentThreadFromRunningThread manager s).runningThread other ≠ some s := by
  unfold State.unsetCurrentThreadFromRunningThread
  split
  · next running =>
    by_cases same : other = manager
    · subst same
      simp [State.setRunning]
    · simpa [State.setRunning,same] using fun runs => same (only other runs)
  · next idle =>
    intro running
    obtain rfl := only other running
    exact idle running

/-- The thread has left its core; the schedulers see no difference. -/
private structure LeavesCore (state : State Thread) (s : Thread) (thread : ThreadState) (next : State Thread) : Prop where
  thread : next.threads s = thread
  core : ∀ manager, next.runningThread manager ≠ some s
  schedulers : next.schedulers = state.schedulers

/-- The thread has got the core of a manager, and runs on no other one. -/
private structure TakesCore (state : State Thread) (manager : Nat) (s : Thread) (next : State Thread) : Prop where
  thread : next.threads s = ((state.threads s).setAwaken false).setRunning.setThreadCurrentlyControllingManager manager
  core : ∀ other, next.runningThread other = some s ↔ other = manager
  schedulers : next.schedulers = state.schedulers

/-- A change of the thread before or after it is taken from its manager. -/
private theorem leaves_unset {before after : ThreadState → ThreadState} (only : OnlyOn state manager s) :
    LeavesCore state s (after (before (state.threads s)))
      (((state.onThread s before).unsetCurrentThreadFromRunningThread manager s).onThread s after) where
  thread := by rw [onThread_self,unset_threads,onThread_self]
  core := @unset_leaves _ _ (state.onThread s before) s manager only
  schedulers := by rw [State.onThread,unset_schedulers,State.onThread]

theorem onThread_id : state.onThread s id = state := by simp [State.onThread]

private theorem leaves_suspended (only : OnlyOn state manager s) :
    LeavesCore state s (state.threads s).setSuspended.onBlockedWaitingInVex
      ((state.setSuspendedAndPushToRunnables manager s).blockCurrentThread s) where
  thread := by
    simp only [State.blockCurrentThread,State.setSuspendedAndPushToRunnables,onThread_self,unset_threads]
  core := unset_leaves only
  schedulers := by
    simp only [State.blockCurrentThread,State.setSuspendedAndPushToRunnables,State.onThread,unset_schedulers]

/-- The thread runs, or finds another one running and is suspended. -/
private theorem setRunningThread_outcome (only : OnlyOn state manager s) :
    TakesCore state manager s (state.setRunningThread manager s) ∨
      LeavesCore state s (state.threads s).setSuspended.onBlockedWaitingInVex (state.setRunningThread manager s) := by
  have kept : OnlyOn (state.onThread s fun thread => thread.setAwaken false) manager s := only
  unfold State.setRunningThread State.changeThreadStateToRunning
  dsimp only
  split_ifs with another
  · obtain ⟨thread,core,schedulers⟩ := leaves_suspended kept
    refine .inr ⟨?_,core,schedulers⟩
    rw [thread,onThread_self]
    rfl
  · refine .inl ⟨?_,fun other => ?_,rfl⟩
    · simp [State.setRunning,State.onThread]
    · by_cases same : other = manager
      · subst same
        simp [State.setRunning]
      · simpa [State.setRunning,State.onThread,same] using fun runs => same (only other runs)

/-- What a call of its manager leaves alone of a thread. -/
structure Calm (before after : ThreadState) : Prop where
  waiting : after.handshake.waiting = before.handshake.waiting
  suspendFlag : after.handshake.suspendFlag = before.handshake.suspendFlag
  signal : after.handshake.signal = before.handshake.signal
  handlers : after.handlers = before.handlers
  interrupted : after.interrupted = before.interrupted
  timedOut : after.timedOut = before.timedOut

/-- No handler is on its way into native waiting. -/
def Undisturbed (thread : ThreadState) : Prop :=
  ∀ handler ∈ thread.handlers, handler.position ≠ .becomesNativeWaiting

theorem undisturbed_of_inside (fine : Fine state s) (inside : (state.threads s).place ≠ .outside) :
    Undisturbed (state.threads s) := fun handler member native => inside (fine.placed.native ⟨handler,member,native⟩)

/-- After a step of a thread to which no request is open, the thread rests or works. -/
theorem fine_of_calm (fine : Fine state s) (free : Free (state.threads s)) (undisturbed : Undisturbed (state.threads s))
    (schedulers : next.schedulers = state.schedulers) (calm : Calm (state.threads s) (next.threads s))
    (inside : (next.threads s).place = .inVex ∨ (next.threads s).place = .resuming →
      (next.threads s).handshake.sharedAccessKey = some .thread)
    (entered : (next.threads s).place ≠ .entering)
    (timedOut : (next.threads s).timedOut ≠ 0 → (next.threads s).isRunning = true → (next.threads s).place ≠ .outside)
    (outcome : Rests next s ∨ ∃ manager, Works next manager s) : Fine next s := by
  have handlers : (next.threads s).handshake.handlers = (state.threads s).handshake.handlers := calm.handlers
  refine fine_of_outcome fine free schedulers calm.waiting calm.suspendFlag ?_ ?_ ?_ outcome
  · simp only [IntentionHandshake.owed,calm.signal,handlers]
  · simp only [handlers]
    exact fun _ member => member
  · refine ⟨inside,fun entering => absurd entering entered,?_,?_,?_,timedOut⟩
    · rw [calm.interrupted]
      exact fine.placed.outside
    · rw [calm.handlers]
      rintro ⟨handler,member,native⟩
      exact absurd native (undisturbed handler member)
    · rw [calm.handlers]
      exact fine.placed.last

theorem Calm.trans {before middle after : ThreadState} (first : Calm before middle) (second : Calm middle after) :
    Calm before after where
  waiting := second.waiting.trans first.waiting
  suspendFlag := second.suspendFlag.trans first.suspendFlag
  signal := second.signal.trans first.signal
  handlers := second.handlers.trans first.handlers
  interrupted := second.interrupted.trans first.interrupted
  timedOut := second.timedOut.trans first.timedOut

/-- The thread has left its core and does nothing that a running thread would do. -/
private theorem fine_of_leaves {middle : State Thread} (fine : Fine state s) (free : Free (state.threads s))
    (undisturbed : Undisturbed (state.threads s)) (schedulers : middle.schedulers = state.schedulers)
    (leaves : LeavesCore middle s thread next) (calm : Calm (state.threads s) thread)
    (inside : thread.place = .inVex ∨ thread.place = .resuming → thread.handshake.sharedAccessKey = some .thread)
    (entered : thread.place ≠ .entering) (stopped : thread.place = .blocked ∨ thread.isRunning = false) : Fine next s := by
  obtain ⟨rfl,core,same⟩ := leaves
  refine fine_of_calm fine free undisturbed (same.trans schedulers) calm inside entered ?_ (.inl ⟨core,?_⟩)
  · rintro - running
    rcases stopped with blocked | stopped
    · simp [blocked]
    · simp [stopped] at running
  · rintro ⟨unblocked,-⟩ running -
    rcases stopped with blocked | stopped
    · exact absurd blocked unblocked
    · simp [stopped] at running

private theorem calm_suspended : Calm thread thread.setSuspended.onBlockedWaitingInVex := ⟨rfl,rfl,rfl,rfl,rfl,rfl⟩

private theorem fine_of_suspended {middle : State Thread} (fine : Fine state s) (free : Free (state.threads s))
    (undisturbed : Undisturbed (state.threads s)) (schedulers : middle.schedulers = state.schedulers)
    (leaves : LeavesCore middle s (middle.threads s).setSuspended.onBlockedWaitingInVex next)
    (calm : Calm (state.threads s) (middle.threads s)) : Fine next s := by
  refine fine_of_leaves fine free undisturbed schedulers leaves (calm.trans calm_suspended) ?_ ?_ (.inl rfl)
  · rintro (inVex | resuming)
    · cases inVex
    · cases resuming
  · exact fun entering => by cases entering

/-- A thread with its key, or a handler that brings its thread out of native waiting, is set running. -/
theorem fine_of_setRunningThread {middle : State Thread} (fine : Fine state s) (free : Free (state.threads s))
    (undisturbed : Undisturbed (state.threads s)) (schedulers : middle.schedulers = state.schedulers)
    (only : OnlyOn middle manager s) (calm : Calm (state.threads s) (middle.threads s))
    (here : (middle.threads s).place = .inVex ∧ (middle.threads s).handshake.sharedAccessKey = some .thread ∨
      (middle.threads s).place = .outside ∧ (state.threads s).timedOut = 0) :
    Fine (middle.setRunningThread manager s) s := by
  rcases setRunningThread_outcome only with ⟨running,core,same⟩ | leaves
  · have moves : Calm (middle.threads s) ((middle.setRunningThread manager s).threads s) := by
      rw [running]
      exact ⟨rfl,rfl,rfl,rfl,rfl,rfl⟩
    have calm := calm.trans moves
    have place : ((middle.setRunningThread manager s).threads s).place = (middle.threads s).place := by
      rw [running]
      rfl
    have key : ((middle.setRunningThread manager s).threads s).handshake.sharedAccessKey =
        (middle.threads s).handshake.sharedAccessKey := by
      rw [running]
      rfl
    have going : (middle.threads s).place ≠ .entering ∧ (middle.threads s).place ≠ .blocked ∧ (middle.threads s).place ≠ .resuming := by
      rcases here with ⟨place,-⟩ | ⟨place,-⟩ <;> simp [place]
    rw [← place] at going
    refine fine_of_calm fine free undisturbed (same.trans schedulers) calm ?_ going.1 ?_
      (.inr ⟨manager,core,⟨going.2.1,going.2.2,?_⟩,?_,?_⟩)
    · rw [place,key]
      rcases here with ⟨-,mine⟩ | ⟨outside,-⟩
      · exact fun _ => mine
      · simp [outside]
    · rw [place,calm.timedOut]
      rcases here with ⟨inVex,-⟩ | ⟨-,none⟩
      · simp [inVex]
      · exact fun some => absurd none some
    · rw [calm.handlers]
      exact undisturbed
    · rw [running]
      rfl
    · rw [running]
      rfl
  · exact fine_of_suspended fine free undisturbed schedulers leaves calm

theorem fine_of_suspendLoose {middle : State Thread} {runnableThreadsEmpty : Bool} (fine : Fine state s)
    (free : Free (state.threads s)) (undisturbed : Undisturbed (state.threads s))
    (schedulers : middle.schedulers = state.schedulers) (only : OnlyOn middle manager s)
    (calm : Calm (state.threads s) (middle.threads s))
    (here : (middle.threads s).place = .inVex ∧ (middle.threads s).handshake.sharedAccessKey = some .thread ∨
      (middle.threads s).place = .outside ∧ (state.threads s).timedOut = 0) :
    Fine (middle.suspendLooseCurrentThread manager s runnableThreadsEmpty) s := by
  have kept : OnlyOn (middle.onThread s ThreadState.unsetNativeWaiting) manager s := only
  have same : (middle.onThread s ThreadState.unsetNativeWaiting).schedulers = state.schedulers := schedulers
  have moved : Calm (state.threads s) ((middle.onThread s ThreadState.unsetNativeWaiting).threads s) := by
    rw [onThread_self]
    exact calm.trans ⟨rfl,rfl,rfl,rfl,rfl,rfl⟩
  unfold State.suspendLooseCurrentThread
  dsimp only
  split_ifs
  · exact fine_of_setRunningThread fine free undisturbed same kept moved (by rwa [onThread_self])
  · exact fine_of_suspended fine free undisturbed same (leaves_suspended kept) moved

private theorem nobody_of_idle (fine : Fine state s) (free : Free (state.threads s)) (idle : Idle state s) (other : Nat) :
    state.runningThread other ≠ some s := fun running => by
  obtain ⟨-,-,controlled⟩ := settled fine free running
  simp [Idle,controlled,running] at idle

/-- A running thread goes from one running state into another. -/
theorem fine_of_newState {newState : Code} (fine : Fine state s)
    (running : (state.threads s).isRunning = true) (runs : ((state.threads s).setNewState newState).isRunning = true) :
    Fine (state.onThread s fun thread => thread.setNewState newState) s := by
  obtain ⟨inside,entering,outside,native,last,timedOut⟩ := fine.placed
  refine fine_of_same fine ?_ ⟨inside,fun place => ?_,outside,native,last,fun some _ => timedOut some running⟩ ⟨rfl,rfl,fun _ => id⟩
    (runs.trans running.symm) rfl rfl Iff.rfl id
  · exact IntentionHandshake.invariant_of_same fine.handshake rfl rfl rfl rfl rfl
  · exact (entering place).imp (fun still => by simp [running] at still) id

theorem fine_of_call {call : Call} {fallback : Nat} (fine : Fine state s) (inVex : (state.threads s).place = .inVex)
    (allowed : call.allowed (state.threads s) = true) (fits : Fits state (.call s fallback call)) :
    Fine (state.call (state.managerFor s fallback) s call) s := by
  have free := free_of_inside fine (.inl inVex)
  have key := fine.placed.inside (.inl inVex)
  have undisturbed := undisturbed_of_inside fine (by simp [inVex])
  have only : OnlyOn state (state.managerFor s fallback) s := onlyOn_managerFor fine free
  generalize state.managerFor s fallback = manager at only ⊢
  have leaves : ∀ {before after : ThreadState → ThreadState} {next : State Thread},
      next = ((state.onThread s before).unsetCurrentThreadFromRunningThread manager s).onThread s after →
      Calm (state.threads s) (after (before (state.threads s))) →
      (after (before (state.threads s))).place = .blocked ∨ (after (before (state.threads s))).place = .inVex ∧
        (after (before (state.threads s))).handshake.sharedAccessKey = some .thread ∧
        (after (before (state.threads s))).isRunning = false → Fine next s := by
    rintro before after next rfl calm goes
    refine fine_of_leaves fine free undisturbed rfl (leaves_unset only) calm ?_ ?_ (goes.imp id fun stays => stays.2.2)
    · rcases goes with blocked | stays
      · simp [blocked]
      · exact fun _ => stays.2.1
    · rcases goes with blocked | stays
      · simp [blocked]
      · simp [stays.1]
  cases call with
  | suspendCurrentThread suspends =>
    simp only [State.call,State.suspendCurrentThread]
    split_ifs
    · exact fine_of_suspended fine free undisturbed rfl (leaves_suspended only) ⟨rfl,rfl,rfl,rfl,rfl,rfl⟩
    · exact fine
    · exact fine_of_setRunningThread fine free undisturbed rfl only ⟨rfl,rfl,rfl,rfl,rfl,rfl⟩ (.inl ⟨inVex,key⟩)
  | suspendLooseCurrentThread runnableThreadsEmpty =>
    exact fine_of_suspendLoose fine free undisturbed rfl only ⟨rfl,rfl,rfl,rfl,rfl,rfl⟩ (.inl ⟨inVex,key⟩)
  | onReplacedWaiting => exact leaves rfl ⟨rfl,rfl,rfl,rfl,rfl,rfl⟩ (.inl rfl)
  | onReplacedTimedWaiting => exact leaves rfl ⟨rfl,rfl,rfl,rfl,rfl,rfl⟩ (.inl rfl)
  | onLocklessRequestingLock =>
    refine @leaves id ThreadState.onBlockedWaitingInVex _ ?_ ⟨rfl,rfl,rfl,rfl,rfl,rfl⟩ (.inl rfl)
    rw [onThread_id]
    rfl
  | onWrappedWaitingStart =>
    refine @leaves ThreadState.setWaiting id _ ?_ ⟨rfl,rfl,rfl,rfl,rfl,rfl⟩ (.inr ⟨inVex,key,rfl⟩)
    rw [onThread_id]
    rfl
  | onWrappedTimedWaitingStart =>
    refine @leaves ThreadState.setTimedWaiting id _ ?_ ⟨rfl,rfl,rfl,rfl,rfl,rfl⟩ (.inr ⟨inVex,key,rfl⟩)
    rw [onThread_id]
    rfl
  | onThreadEnd =>
    refine @leaves (fun thread => thread.setNewState .vexZombie) id _ ?_ ⟨rfl,rfl,rfl,rfl,rfl,rfl⟩ (.inr ⟨inVex,key,rfl⟩)
    rw [onThread_id]
    rfl
  | setIoThread learning =>
    refine @leaves id (fun thread => thread.setNewState (if learning then .learningIo else .inIo)) _ ?_ ⟨rfl,rfl,rfl,rfl,rfl,rfl⟩
      (.inr ⟨inVex,key,?_⟩)
    · rw [onThread_id]
      rfl
    · cases learning <;> rfl
  | onWrappedTimedWaitingEnd =>
    have nobody := nobody_of_idle fine free fits
    have ended : LeavesCore state s (state.threads s).setSuspended.onBlockedWaitingInVex (state.call manager s .onWrappedTimedWaitingEnd) :=
      ⟨by simp only [State.call,State.blockCurrentThread,onThread_self],nobody,rfl⟩
    exact fine_of_suspended fine free undisturbed rfl ended ⟨rfl,rfl,rfl,rfl,rfl,rfl⟩
  | setSystemCallThread =>
    simp only [Call.allowed,Bool.and_eq_true] at allowed
    exact fine_of_newState fine allowed.2 rfl
  | onCachedIoEnd =>
    simp only [Call.allowed,Bool.and_eq_true] at allowed
    exact fine_of_newState fine allowed.2 rfl

end Invariant

end Vexjine.RunningThreads
