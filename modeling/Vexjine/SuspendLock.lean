import Vexjine.Runs

/-!
# Suspending and resuming one thread

The `suspendLock` of a thread, which the thread holds except while it waits or
while its model is being simulated, and the schedulers that resume it. A step is
one statement of `Scheduling`, or one critical section. A scheduler that finds
`awaken` set does not take the lock, and gives it back all the same.
-/

namespace Vexjine.SuspendLock
set_option linter.unusedSimpArgs false
set_option linter.unusedSectionVars false

inductive Party (Scheduler : Type)
  | thread
  | scheduler (s : Scheduler)
  deriving DecidableEq

/-- Where the thread is. -/
inductive Position
  | unspawned
  | running
  | blocking          -- about to test `awaken`
  | waiting           -- inside `pthread_cond_wait`, the lock released
  | awakened          -- out of the wait set, not yet in possession of the lock
  | simulatingModel
  | ending            -- about to test `simulatingModel`
  | endWaiting
  | endAwakened
  deriving DecidableEq

/-- Where a scheduler is in `resumeThread`. -/
inductive Phase
  | idle
  | locking           -- inside `waitForThreadToBlock`, `awaken` found unset
  | resuming
  | resumed
  | signalled
  deriving DecidableEq

structure State (Scheduler : Type) where
  suspendLock : Option (Party Scheduler) := none
  awaken : Bool := false
  simulatingModel : Bool := false
  position : Position := .unspawned
  phase : Scheduler → Phase := fun _ => .idle
  /-- The resumes by schedulers and the returns from `blockHereUntilSignaled` so far; no step reads them. -/
  resumes : Nat := 0
  returns : Nat := 0

def initial (Scheduler : Type) : State Scheduler := {}

/-- Steps of the thread, then those of the schedulers. -/
inductive Event (Scheduler : Type)
  | onThreadSpawn
  | blockHereUntilSignaled
  | testAwaken
  | wakeUp            -- also without a signal
  | relock
  | startSchedulerControlledModelSimulation
  | blockUntilModelSimulationEnd
  | testSimulatingModel
  /-- `setAwaken(false)` of `setRunningThread`, `setSuspended`, `setTimedWaiting` or of a model's simulation. -/
  | clearAwaken
  | waitForThreadToBlock (s : Scheduler)
  | lock (s : Scheduler)
  | onThreadResumeByManager (s : Scheduler)
  | signalBlockedThreadToResume (s : Scheduler)
  | allowSignalledThreadToResume (s : Scheduler)
  | resumeModelSimulation
  | notifyModelSimulationEnd
  deriving DecidableEq

variable {Scheduler : Type} [DecidableEq Scheduler]

namespace State
variable (state : State Scheduler)

def acquire (party : Party Scheduler) : Option (State Scheduler) :=
  if state.suspendLock = none then some { state with suspendLock := some party } else none

/-- Whoever calls it, the mutex does not check. -/
def release : State Scheduler := { state with suspendLock := none }

def setPosition (position : Position) : State Scheduler := { state with position }

def setPhase (s : Scheduler) (phase : Phase) : State Scheduler :=
  { state with phase := Function.update state.phase s phase }

def setAwaken (awaken : Bool) : State Scheduler := { state with awaken }

/-- Only the thread itself ever waits at `condSuspendLock`. -/
def signal : State Scheduler :=
  match state.position with
  | .waiting => state.setPosition .awakened
  | .endWaiting => state.setPosition .endAwakened
  | _ => state

/-- The test in the loop of `blockHereUntilSignaled`. -/
def testAwaken : State Scheduler :=
  if state.awaken then { state.setPosition .running with returns := state.returns + 1 }
  else state.release.setPosition .waiting

/-- The test in the loop of `blockUntilModelSimulationEnd`. -/
def testSimulatingModel : State Scheduler :=
  if state.simulatingModel then state.release.setPosition .endWaiting else state.setPosition .running

def startSchedulerControlledModelSimulation : State Scheduler :=
  { state.release.setPosition .simulatingModel with simulatingModel := true }

def onThreadResumeByManager (s : Scheduler) : State Scheduler :=
  { (state.setAwaken true).setPhase s .resumed with resumes := state.resumes + 1 }

def notifyModelSimulationEnd : State Scheduler := { state with simulatingModel := false }.signal

end State

/-- One step; `none` where the party is not at it, or waits for the lock. -/
def step (state : State Scheduler) : Event Scheduler → Option (State Scheduler)
  | .onThreadSpawn =>
    if state.position = .unspawned then (state.acquire .thread).map fun locked => locked.setPosition .running else none
  | .blockHereUntilSignaled =>
    if state.position = .running then some ((state.setAwaken false).setPosition .blocking) else none
  | .testAwaken => if state.position = .blocking then some state.testAwaken else none
  | .wakeUp => if state.position = .waiting ∨ state.position = .endWaiting then some state.signal else none
  | .relock =>
    match state.position with
    | .awakened => (state.acquire .thread).map fun locked => locked.setPosition .blocking
    | .endAwakened => (state.acquire .thread).map fun locked => locked.setPosition .ending
    | _ => none
  | .startSchedulerControlledModelSimulation =>
    if state.position = .running then some state.startSchedulerControlledModelSimulation else none
  | .blockUntilModelSimulationEnd =>
    if state.position = .simulatingModel then (state.acquire .thread).map fun locked => locked.setPosition .ending
    else none
  | .testSimulatingModel => if state.position = .ending then some state.testSimulatingModel else none
  | .clearAwaken => some (state.setAwaken false)
  | .waitForThreadToBlock s =>
    -- a thread takes its lock before the schedulers know of it
    if state.phase s = .idle ∧ state.position ≠ .unspawned then
      some (state.setPhase s (if state.awaken then .resuming else .locking))
    else none
  | .lock s =>
    if state.phase s = .locking then (state.acquire (.scheduler s)).map fun locked => locked.setPhase s .resuming
    else none
  | .onThreadResumeByManager s =>
    if state.phase s = .resuming then some (state.onThreadResumeByManager s) else none
  | .signalBlockedThreadToResume s => if state.phase s = .resumed then some (state.signal.setPhase s .signalled) else none
  | .allowSignalledThreadToResume s => if state.phase s = .signalled then some (state.release.setPhase s .idle) else none
  | .resumeModelSimulation => if state.simulatingModel then some (state.setAwaken true) else none
  | .notifyModelSimulationEnd =>
    if state.simulatingModel ∧ state.suspendLock = none then some state.notifyModelSimulationEnd else none

/-! ## The handshake -/

/-- Who releases `suspendLock` in the step. -/
def State.unlocking (state : State Scheduler) : Event Scheduler → Option (Party Scheduler)
  | .testAwaken => if state.awaken then none else some .thread
  | .testSimulatingModel => if state.simulatingModel then some .thread else none
  | .startSchedulerControlledModelSimulation => some .thread
  | .allowSignalledThreadToResume s => some (.scheduler s)
  | _ => none

/-- The thread is blocked, and resumed. -/
def State.isReturning (state : State Scheduler) : Bool :=
  state.awaken && (decide (state.position = .waiting) || decide (state.position = .awakened) ||
    decide (state.position = .blocking))

/-- What is released is held, each resume has led to one return or is about to, and no scheduler completes a resume
    before the thread is on its way. -/
structure Handshake (state : State Scheduler) (event : Event Scheduler) : Prop where
  owned : ∀ party ∈ state.unlocking event, state.suspendLock = some party
  once : state.resumes = state.returns + if state.isReturning then 1 else 0
  notLost : ∀ s, event = .allowSignalledThreadToResume s → state.isReturning = true ∧ state.position ≠ .waiting

/-- An accepted step is part of the handshake. -/
def KeepsHandshake (state : State Scheduler) (event : Event Scheduler) : Prop :=
  (step state event).isSome = true → Handshake state event

/-! ## When it holds -/

/-- A resume begins with `awaken` unset, and gets the lock of a thread that waits with `awaken` unset. Nobody clears
    `awaken` while the thread is on its way. -/
structure Orderly (state : State Scheduler) (event : Event Scheduler) : Prop where
  begins : ∀ s, event = .waitForThreadToBlock s → state.awaken = false
  locks : ∀ s, event = .lock s →
    (state.position = .waiting ∨ state.position = .awakened) ∧ state.awaken = false
  clears : event = .clearAwaken → state.isReturning = false

instance (state : State Scheduler) : (event : Event Scheduler) → Decidable (Orderly state event)
  | .waitForThreadToBlock s => decidable_of_iff (state.awaken = false)
      ⟨fun own => ⟨fun _ _ => own,nofun,nofun⟩,fun orderly => orderly.begins s rfl⟩
  | .lock s => decidable_of_iff ((state.position = .waiting ∨ state.position = .awakened) ∧ state.awaken = false)
      ⟨fun own => ⟨nofun,fun _ _ => own,nofun⟩,fun orderly => orderly.locks s rfl⟩
  | .clearAwaken => decidable_of_iff (state.isReturning = false)
      ⟨fun own => ⟨nofun,nofun,fun _ => own⟩,fun orderly => orderly.clears rfl⟩
  | .onThreadSpawn | .blockHereUntilSignaled | .testAwaken | .wakeUp | .relock
  | .startSchedulerControlledModelSimulation | .blockUntilModelSimulationEnd | .testSimulatingModel
  | .onThreadResumeByManager _ | .signalBlockedThreadToResume _ | .allowSignalledThreadToResume _
  | .resumeModelSimulation | .notifyModelSimulationEnd => .isTrue ⟨nofun,nofun,nofun⟩

/-- Where the thread and a scheduler are tells who holds the lock, whether `awaken` is set, and whether a resume
    is still to be answered. -/
private structure Inv (state : State Scheduler) : Prop where
  thread : state.suspendLock = some .thread ↔
    state.position = .running ∨ state.position = .blocking ∨ state.position = .ending
  scheduler : ∀ s, state.suspendLock = some (.scheduler s) ↔ state.phase s ≠ .idle ∧ state.phase s ≠ .locking
  resuming : ∀ s, state.phase s = .resuming →
    (state.position = .waiting ∨ state.position = .awakened) ∧ state.awaken = false
  resumed : ∀ s, state.phase s = .resumed →
    (state.position = .waiting ∨ state.position = .awakened) ∧ state.awaken = true
  signalled : ∀ s, state.phase s = .signalled → state.position = .awakened ∧ state.awaken = true
  undelivered : state.position = .waiting → state.awaken = true → ∃ s, state.phase s = .resumed
  once : state.resumes = state.returns + if state.isReturning then 1 else 0
  simulates : state.simulatingModel = true → state.position = .simulatingModel ∨ state.position = .ending ∨
    state.position = .endWaiting ∨ state.position = .endAwakened

variable {state next last : State Scheduler} {event : Event Scheduler}

private theorem inv_initial : Inv (initial Scheduler) := by
  constructor <;> simp [initial,State.isReturning]

private theorem acquired {party : Party Scheduler} {locked : State Scheduler}
    (success : state.acquire party = some locked) :
    state.suspendLock = none ∧ locked = { state with suspendLock := some party } := by
  simp only [State.acquire,Option.ite_none_right_eq_some,Option.some.injEq] at success
  exact ⟨success.1,success.2.symm⟩

/-- The lock is free or the thread's while no scheduler is past `waitForThreadToBlock`. -/
private theorem Inv.quiet (inv : Inv state) (quiet : ∀ s, state.phase s = .idle ∨ state.phase s = .locking) :
    state.suspendLock = none ∨ state.suspendLock = some .thread := by
  rcases holder : state.suspendLock with _ | _ | s
  · exact .inl rfl
  · exact .inr rfl
  · obtain ⟨notIdle,notLocking⟩ := (inv.scheduler s).mp holder
    rcases quiet s with idle | locking
    · exact absurd idle notIdle
    · exact absurd locking notLocking

/-- No scheduler is past `waitForThreadToBlock` while the thread holds the lock or nobody does. -/
private theorem Inv.unresumed (inv : Inv state) (free : ∀ s, state.suspendLock ≠ some (.scheduler s)) (s : Scheduler) :
    state.phase s = .idle ∨ state.phase s = .locking := by
  by_contra busy
  rw [not_or] at busy
  exact free s ((inv.scheduler s).mpr busy)

/-- While no scheduler is past `waitForThreadToBlock`, the invariant is about the thread only. -/
private theorem inv_of_quiet (quiet : ∀ s, next.phase s = .idle ∨ next.phase s = .locking)
    (free : ∀ s, next.suspendLock ≠ some (.scheduler s))
    (thread : next.suspendLock = some .thread ↔
      next.position = .running ∨ next.position = .blocking ∨ next.position = .ending)
    (asleep : next.position = .waiting → next.awaken = false)
    (once : next.resumes = next.returns + if next.isReturning then 1 else 0)
    (simulates : next.simulatingModel = true → next.position = .simulatingModel ∨ next.position = .ending ∨
      next.position = .endWaiting ∨ next.position = .endAwakened) : Inv next := by
  have early : ∀ s phase, next.phase s = phase → phase = .idle ∨ phase = .locking := by
    rintro s phase rfl
    exact quiet s
  refine ⟨thread,fun s => ?_,fun s phase => ?_,fun s phase => ?_,fun s phase => ?_,fun waiting awaken => ?_,once,simulates⟩
  · refine iff_of_false (free s) ?_
    rintro ⟨notIdle,notLocking⟩
    exact (quiet s).elim notIdle notLocking
  · exact absurd (early s _ phase) (by decide)
  · exact absurd (early s _ phase) (by decide)
  · exact absurd (early s _ phase) (by decide)
  · rw [asleep waiting] at awaken
    contradiction

/-- No other scheduler is past `waitForThreadToBlock` while this one holds the lock. -/
private theorem Inv.alone {s : Scheduler} (inv : Inv state) (held : state.suspendLock = some (.scheduler s))
    (other : Scheduler) (different : other ≠ s) : state.phase other = .idle ∨ state.phase other = .locking := by
  by_contra busy
  rw [not_or] at busy
  rw [(inv.scheduler other).mpr busy,Option.some.injEq,Party.scheduler.injEq] at held
  exact different held

private theorem setPhase_own (state : State Scheduler) (s : Scheduler) (phase : Phase) :
    (state.setPhase s phase).phase s = phase := Function.update_self ..

private theorem setPhase_other (state : State Scheduler) {s other : Scheduler} (phase : Phase) (different : other ≠ s) :
    (state.setPhase s phase).phase other = state.phase other := Function.update_of_ne different ..

/-- While a scheduler holds the lock, the invariant is about this one and the thread, which waits. -/
private theorem inv_of_held {s : Scheduler} {phase : Phase} (held : next.suspendLock = some (.scheduler s))
    (own : next.phase s = phase)
    (alone : ∀ other, other ≠ s → next.phase other = .idle ∨ next.phase other = .locking)
    (busy : phase ≠ .idle ∧ phase ≠ .locking)
    (waits : next.position = .waiting ∨ next.position = .awakened)
    (signalled : phase = .signalled → next.position = .awakened)
    (asleep : phase = .resuming → next.awaken = false) (awake : phase ≠ .resuming → next.awaken = true)
    (once : next.resumes = next.returns + if next.isReturning then 1 else 0)
    (simulates : next.simulatingModel = true → next.position = .simulatingModel ∨ next.position = .ending ∨
      next.position = .endWaiting ∨ next.position = .endAwakened) : Inv next := by
  subst own
  have only : ∀ other phase, next.phase other = phase → phase ≠ .idle ∧ phase ≠ .locking → other = s := by
    rintro other phase rfl ⟨notIdle,notLocking⟩
    by_contra different
    exact (alone other different).elim notIdle notLocking
  refine ⟨?_,fun other => ?_,fun other phase => ?_,fun other phase => ?_,fun other phase => ?_,fun waiting awaken => ?_,
    once,simulates⟩
  · rw [held]
    rcases waits with waiting | awakened
    · simp [waiting]
    · simp [awakened]
  · rw [held,Option.some.injEq,Party.scheduler.injEq]
    constructor
    · rintro rfl
      exact busy
    · intro notIdle
      exact (only other _ rfl notIdle).symm
  · cases only other _ phase (by decide)
    exact ⟨waits,asleep phase⟩
  · cases only other _ phase (by decide)
    exact ⟨waits,awake (by simp [phase])⟩
  · cases only other _ phase (by decide)
    exact ⟨signalled phase,awake (by simp [phase])⟩
  · refine ⟨s,?_⟩
    cases phase : next.phase s with
    | idle => exact absurd phase busy.1
    | locking => exact absurd phase busy.2
    | resuming =>
      rw [asleep phase] at awaken
      contradiction
    | resumed => rfl
    | signalled =>
      rw [signalled phase] at waiting
      contradiction

/-! ## Steps of the thread -/

private theorem spawn_inv (inv : Inv state) (stepped : step state .onThreadSpawn = some next) : Inv next := by
  simp only [step,Option.ite_none_right_eq_some,Option.map_eq_some_iff] at stepped
  obtain ⟨unspawned,locked,success,rfl⟩ := stepped
  obtain ⟨free,rfl⟩ := acquired success
  have once := inv.once
  have simulates := inv.simulates
  rw [unspawned] at simulates
  refine inv_of_quiet (inv.unresumed (by simp [free])) nofun (iff_of_true rfl (.inl rfl)) nofun ?_ ?_
  · simpa [State.isReturning,State.setPosition,unspawned] using once
  · intro simulating
    simpa using simulates simulating

private theorem block_inv (inv : Inv state) (stepped : step state .blockHereUntilSignaled = some next) : Inv next := by
  simp only [step,Option.ite_none_right_eq_some,Option.some.injEq] at stepped
  obtain ⟨running,rfl⟩ := stepped
  have held := inv.thread.mpr (.inl running)
  have once := inv.once
  have simulates := inv.simulates
  rw [running] at simulates
  refine inv_of_quiet (inv.unresumed (by simp [held])) ?_ (iff_of_true held (.inr (.inl rfl))) nofun ?_ ?_
  · intro s
    simp [State.setPosition,State.setAwaken,held]
  · simpa [State.isReturning,State.setPosition,State.setAwaken,running] using once
  · intro simulating
    simpa using simulates simulating

private theorem testAwaken_inv (inv : Inv state) (stepped : step state .testAwaken = some next) : Inv next := by
  simp only [step,Option.ite_none_right_eq_some,Option.some.injEq] at stepped
  obtain ⟨blocking,rfl⟩ := stepped
  have held := inv.thread.mpr (.inr (.inl blocking))
  have quiet := inv.unresumed (by simp [held])
  have once := inv.once
  have simulates := inv.simulates
  rw [blocking] at simulates
  rw [State.testAwaken]
  by_cases awaken : state.awaken = true
  · rw [if_pos awaken]
    refine inv_of_quiet quiet ?_ (iff_of_true held (.inl rfl)) nofun ?_ ?_
    · intro s
      simp [State.setPosition,held]
    · simpa [State.isReturning,State.setPosition,blocking,awaken] using once
    · intro simulating
      simpa using simulates simulating
  · rw [if_neg awaken]
    refine inv_of_quiet quiet nofun (by simp [State.setPosition,State.release]) ?_ ?_ ?_
    · intro _
      exact Bool.eq_false_iff.mpr awaken
    · simpa [State.isReturning,State.setPosition,State.release,awaken] using once
    · intro simulating
      simpa using simulates simulating

private theorem wakeUp_inv (inv : Inv state) (stepped : step state .wakeUp = some next) : Inv next := by
  simp only [step,Option.ite_none_right_eq_some,Option.some.injEq] at stepped
  obtain ⟨waits,rfl⟩ := stepped
  obtain ⟨thread,scheduler,resuming,resumed,signalled,undelivered,once,simulates⟩ := inv
  rcases waits with waiting | endWaiting
  · constructor <;> simp only [State.signal,waiting,State.setPosition,State.isReturning] at * <;> grind
  · constructor <;> simp only [State.signal,endWaiting,State.setPosition,State.isReturning] at * <;> grind

private theorem relock_inv (inv : Inv state) (stepped : step state .relock = some next) : Inv next := by
  simp only [step] at stepped
  have once := inv.once
  have simulates := inv.simulates
  split at stepped
  case h_3 => cases stepped
  case h_1 awakened =>
    obtain ⟨locked,success,rfl⟩ := Option.map_eq_some_iff.mp stepped
    obtain ⟨free,rfl⟩ := acquired success
    rw [awakened] at simulates
    refine inv_of_quiet (inv.unresumed (by simp [free])) nofun (iff_of_true rfl (.inr (.inl rfl))) nofun ?_ ?_
    · simpa [State.isReturning,State.setPosition,awakened] using once
    · intro simulating
      simpa using simulates simulating
  case h_2 endAwakened =>
    obtain ⟨locked,success,rfl⟩ := Option.map_eq_some_iff.mp stepped
    obtain ⟨free,rfl⟩ := acquired success
    refine inv_of_quiet (inv.unresumed (by simp [free])) nofun (iff_of_true rfl (.inr (.inr rfl))) nofun ?_ ?_
    · simpa [State.isReturning,State.setPosition,endAwakened] using once
    · intro _
      exact .inr (.inl rfl)

private theorem startSimulation_inv (inv : Inv state)
    (stepped : step state .startSchedulerControlledModelSimulation = some next) : Inv next := by
  simp only [step,Option.ite_none_right_eq_some,Option.some.injEq] at stepped
  obtain ⟨running,rfl⟩ := stepped
  have held := inv.thread.mpr (.inl running)
  have once := inv.once
  refine inv_of_quiet (inv.unresumed (by simp [held])) nofun ?_ nofun ?_ ?_
  · simp [State.startSchedulerControlledModelSimulation,State.release,State.setPosition]
  · simpa [State.startSchedulerControlledModelSimulation,State.release,State.setPosition,State.isReturning,running]
      using once
  · intro _
    exact .inl rfl

private theorem endSimulation_inv (inv : Inv state)
    (stepped : step state .blockUntilModelSimulationEnd = some next) : Inv next := by
  simp only [step,Option.ite_none_right_eq_some,Option.map_eq_some_iff] at stepped
  obtain ⟨simulating,locked,success,rfl⟩ := stepped
  obtain ⟨free,rfl⟩ := acquired success
  have once := inv.once
  refine inv_of_quiet (inv.unresumed (by simp [free])) nofun (iff_of_true rfl (.inr (.inr rfl))) nofun ?_ ?_
  · simpa [State.isReturning,State.setPosition,simulating] using once
  · intro _
    exact .inr (.inl rfl)

private theorem testSimulatingModel_inv (inv : Inv state) (stepped : step state .testSimulatingModel = some next) :
    Inv next := by
  simp only [step,Option.ite_none_right_eq_some,Option.some.injEq] at stepped
  obtain ⟨ending,rfl⟩ := stepped
  have held := inv.thread.mpr (.inr (.inr ending))
  have quiet := inv.unresumed (by simp [held])
  have once := inv.once
  rw [State.testSimulatingModel]
  by_cases simulated : state.simulatingModel = true
  · rw [if_pos simulated]
    refine inv_of_quiet quiet nofun (by simp [State.setPosition,State.release]) nofun ?_ ?_
    · simpa [State.isReturning,State.setPosition,State.release,ending] using once
    · intro _
      exact .inr (.inr (.inl rfl))
  · rw [if_neg simulated]
    refine inv_of_quiet quiet ?_ (iff_of_true held (.inl rfl)) nofun ?_ ?_
    · intro s
      simp [State.setPosition,held]
    · simpa [State.isReturning,State.setPosition,ending] using once
    · intro simulating
      exact absurd simulating simulated

private theorem clearAwaken_inv (inv : Inv state) (orderly : Orderly state .clearAwaken)
    (stepped : step state .clearAwaken = some next) : Inv next := by
  simp only [step,Option.some.injEq] at stepped
  subst stepped
  have stays := orderly.clears rfl
  obtain ⟨thread,scheduler,resuming,resumed,signalled,undelivered,once,simulates⟩ := inv
  constructor <;> simp only [State.setAwaken,State.isReturning] at * <;> grind

/-! ## Steps of the schedulers -/

private theorem waitForThreadToBlock_inv {s : Scheduler} (inv : Inv state)
    (orderly : Orderly state (.waitForThreadToBlock s))
    (stepped : step state (.waitForThreadToBlock s) = some next) : Inv next := by
  simp only [step,orderly.begins s rfl,Option.ite_none_right_eq_some,Option.some.injEq] at stepped
  obtain ⟨⟨idle,-⟩,rfl⟩ := stepped
  obtain ⟨thread,scheduler,resuming,resumed,signalled,undelivered,once,simulates⟩ := inv
  constructor <;> simp only [State.setPhase,State.isReturning,Function.update_apply] at * <;> grind

private theorem lock_inv {s : Scheduler} (inv : Inv state) (orderly : Orderly state (.lock s))
    (stepped : step state (.lock s) = some next) : Inv next := by
  simp only [step,Option.ite_none_right_eq_some,Option.map_eq_some_iff] at stepped
  obtain ⟨locking,locked,success,rfl⟩ := stepped
  obtain ⟨free,rfl⟩ := acquired success
  obtain ⟨waits,asleep⟩ := orderly.locks s rfl
  have quiet := inv.unresumed (by simp [free])
  refine inv_of_held rfl (setPhase_own _ s .resuming) (fun other different => ?_) (by decide) waits nofun (fun _ => asleep)
    (fun differs => absurd rfl differs) inv.once inv.simulates
  rw [setPhase_other _ _ different]
  exact quiet other

private theorem resume_inv {s : Scheduler} (inv : Inv state)
    (stepped : step state (.onThreadResumeByManager s) = some next) : Inv next := by
  simp only [step,Option.ite_none_right_eq_some,Option.some.injEq] at stepped
  obtain ⟨resuming,rfl⟩ := stepped
  obtain ⟨waits,asleep⟩ := inv.resuming s resuming
  have held : state.suspendLock = some (.scheduler s) := (inv.scheduler s).mpr (by simp [resuming])
  have own : (state.onThreadResumeByManager s).phase s = .resumed := setPhase_own ..
  have once := inv.once
  refine inv_of_held held own (fun other different => ?_) (by decide) waits nofun nofun (fun _ => rfl) ?_ inv.simulates
  · have unchanged : (state.onThreadResumeByManager s).phase other = state.phase other := setPhase_other _ _ different
    rw [unchanged]
    exact inv.alone held other different
  · rcases waits with waiting | awakened
    · simpa [State.onThreadResumeByManager,State.setPhase,State.setAwaken,State.isReturning,waiting,asleep] using once
    · simpa [State.onThreadResumeByManager,State.setPhase,State.setAwaken,State.isReturning,awakened,asleep] using once

private theorem signal_inv {s : Scheduler} (inv : Inv state)
    (stepped : step state (.signalBlockedThreadToResume s) = some next) : Inv next := by
  simp only [step,Option.ite_none_right_eq_some,Option.some.injEq] at stepped
  obtain ⟨resumed,rfl⟩ := stepped
  obtain ⟨waits,awake⟩ := inv.resumed s resumed
  have held : state.suspendLock = some (.scheduler s) := (inv.scheduler s).mpr (by simp [resumed])
  -- the thread leaves the wait set, if it has not left it without a signal
  have awakened : state.signal = state.setPosition .awakened := by
    rcases waits with waiting | awakened
    · rw [State.signal,waiting]
    · simp only [State.signal,awakened]
      rw [State.setPosition,← awakened]
  rw [awakened]
  have once := inv.once
  have simulates := inv.simulates
  refine inv_of_held held (setPhase_own _ s .signalled) (fun other different => ?_) (by decide) (.inr rfl) (fun _ => rfl) nofun
    (fun _ => awake) ?_ ?_
  · rw [setPhase_other _ _ different]
    exact inv.alone held other different
  · rcases waits with waiting | awakened
    · simpa [State.setPosition,State.setPhase,State.isReturning,waiting,awake] using once
    · simpa [State.setPosition,State.setPhase,State.isReturning,awakened,awake] using once
  · intro simulating
    have away := simulates simulating
    rcases waits with waiting | awakened
    · simp [waiting] at away
    · simp [awakened] at away

private theorem allow_inv {s : Scheduler} (inv : Inv state)
    (stepped : step state (.allowSignalledThreadToResume s) = some next) : Inv next := by
  simp only [step,Option.ite_none_right_eq_some,Option.some.injEq] at stepped
  obtain ⟨phase,rfl⟩ := stepped
  have holds : state.suspendLock = some (.scheduler s) := (inv.scheduler s).mpr (by simp [phase])
  obtain ⟨thread,scheduler,resuming,resumed,signalled,undelivered,once,simulates⟩ := inv
  constructor <;> simp only [State.release,State.setPhase,State.isReturning,Function.update_apply] at * <;> grind

private theorem simulation_inv (inv : Inv state) (stepped : step state .resumeModelSimulation = some next) : Inv next := by
  simp only [step,Option.ite_none_right_eq_some,Option.some.injEq] at stepped
  obtain ⟨simulated,rfl⟩ := stepped
  obtain ⟨thread,scheduler,resuming,resumed,signalled,undelivered,once,simulates⟩ := inv
  have away := simulates simulated
  constructor <;> simp only [State.setAwaken,State.isReturning] at * <;> grind

private theorem notify_inv (inv : Inv state) (stepped : step state .notifyModelSimulationEnd = some next) : Inv next := by
  simp only [step,Option.ite_none_right_eq_some,Option.some.injEq] at stepped
  obtain ⟨⟨simulated,free⟩,rfl⟩ := stepped
  obtain ⟨thread,scheduler,resuming,resumed,signalled,undelivered,once,simulates⟩ := inv
  rcases simulates simulated with here | here | here | here <;>
    constructor <;> simp only [State.notifyModelSimulationEnd,State.signal,here,State.setPosition,State.isReturning] at *
      <;> grind

private theorem step_inv (inv : Inv state) (orderly : Orderly state event) (stepped : step state event = some next) :
    Inv next := by
  cases event with
  | onThreadSpawn => exact spawn_inv inv stepped
  | blockHereUntilSignaled => exact block_inv inv stepped
  | testAwaken => exact testAwaken_inv inv stepped
  | wakeUp => exact wakeUp_inv inv stepped
  | relock => exact relock_inv inv stepped
  | startSchedulerControlledModelSimulation => exact startSimulation_inv inv stepped
  | blockUntilModelSimulationEnd => exact endSimulation_inv inv stepped
  | testSimulatingModel => exact testSimulatingModel_inv inv stepped
  | clearAwaken => exact clearAwaken_inv inv orderly stepped
  | waitForThreadToBlock s => exact waitForThreadToBlock_inv inv orderly stepped
  | lock s => exact lock_inv inv orderly stepped
  | onThreadResumeByManager s => exact resume_inv inv stepped
  | signalBlockedThreadToResume s => exact signal_inv inv stepped
  | allowSignalledThreadToResume s => exact allow_inv inv stepped
  | resumeModelSimulation => exact simulation_inv inv stepped
  | notifyModelSimulationEnd => exact notify_inv inv stepped

/-! ## Runs -/

private theorem inv_owned (inv : Inv state) (accepted : (step state event).isSome = true) {party : Party Scheduler}
    (unlocks : party ∈ state.unlocking event) : state.suspendLock = some party := by
  obtain ⟨next,stepped⟩ := Option.isSome_iff_exists.mp accepted
  cases event with
  | testAwaken =>
    simp only [step,Option.ite_none_right_eq_some] at stepped
    simp only [State.unlocking,Option.mem_def,Option.ite_none_left_eq_some,Option.some.injEq] at unlocks
    exact unlocks.2 ▸ inv.thread.mpr (.inr (.inl stepped.1))
  | testSimulatingModel =>
    simp only [step,Option.ite_none_right_eq_some] at stepped
    simp only [State.unlocking,Option.mem_def,Option.ite_none_right_eq_some,Option.some.injEq] at unlocks
    exact unlocks.2 ▸ inv.thread.mpr (.inr (.inr stepped.1))
  | startSchedulerControlledModelSimulation =>
    simp only [step,Option.ite_none_right_eq_some] at stepped
    simp only [State.unlocking,Option.mem_def,Option.some.injEq] at unlocks
    exact unlocks ▸ inv.thread.mpr (.inl stepped.1)
  | allowSignalledThreadToResume s =>
    simp only [step,Option.ite_none_right_eq_some] at stepped
    simp only [State.unlocking,Option.mem_def,Option.some.injEq] at unlocks
    exact unlocks ▸ (inv.scheduler s).mpr (by simp [stepped.1])
  | _ => cases unlocks

private theorem inv_handshake (inv : Inv state) : KeepsHandshake state event := by
  intro accepted
  refine ⟨fun party unlocks => inv_owned inv accepted unlocks,inv.once,?_⟩
  rintro s rfl
  obtain ⟨next,stepped⟩ := Option.isSome_iff_exists.mp accepted
  simp only [step,Option.ite_none_right_eq_some] at stepped
  obtain ⟨awakened,awaken⟩ := inv.signalled s stepped.1
  simp [State.isReturning,awakened,awaken]

private theorem inv_returns (inv : Inv state) (returning : state.isReturning = true)
    (quiet : ∀ s, state.phase s = .idle ∨ state.phase s = .locking) :
    ∃ after, (step state .testAwaken = some after ∨ Runs.run step state [.relock,.testAwaken] = some after) ∧
      after.returns = state.resumes := by
  have once := inv.once
  rw [returning,if_pos rfl] at once
  simp only [State.isReturning,Bool.and_eq_true,Bool.or_eq_true,decide_eq_true_eq] at returning
  obtain ⟨awaken,(waiting | awakened) | blocking⟩ := returning
  · obtain ⟨s,resumed⟩ := inv.undelivered waiting awaken
    have idle := quiet s
    simp [resumed] at idle
  · rcases inv.quiet quiet with free | held
    · refine ⟨{ state with suspendLock := some .thread, position := .running, returns := state.returns + 1 },.inr ?_,once.symm⟩
      simp [Runs.run,step,awakened,State.acquire,free,State.setPosition,State.testAwaken,awaken]
    · have here := inv.thread.mp held
      simp [awakened] at here
  · refine ⟨{ state with position := .running, returns := state.returns + 1 },.inl ?_,once.symm⟩
    simp [step,blocking,State.setPosition,State.testAwaken,awaken]

/-- In a run whose steps are all orderly the handshake is kept, and a thread whose resume is complete returns by steps
    of its own. -/
theorem resumes_return_once (events : List (Event Scheduler)) (orderly : Runs.Meets step Orderly (initial Scheduler) events) :
    Runs.Meets step KeepsHandshake (initial Scheduler) events ∧
    ∀ last, Runs.run step (initial Scheduler) events = some last → last.isReturning = true →
      (∀ s, last.phase s = .idle ∨ last.phase s = .locking) →
      ∃ after, (step last .testAwaken = some after ∨ Runs.run step last [.relock,.testAwaken] = some after) ∧
        after.returns = last.resumes := by
  have preserved : ∀ (state : State Scheduler) event next, Inv state → Orderly state event →
      step state event = some next → Inv next := fun _ _ _ inv orderly stepped => step_inv inv orderly stepped
  constructor
  · exact Runs.meets_of_invariant preserved (fun _ _ inv _ => inv_handshake inv) inv_initial orderly
  · intro last executed
    exact inv_returns (Runs.invariant_of_meets preserved inv_initial orderly executed)

/-- The thread spawns and blocks, while a scheduler already waits for it; it returns after the resume. -/
private def resumedOnce : List (Event (Fin 2)) :=
  [.onThreadSpawn,.waitForThreadToBlock 0,.blockHereUntilSignaled,.testAwaken,.lock 0,.onThreadResumeByManager 0,.wakeUp,
    .signalBlockedThreadToResume 0,.allowSignalledThreadToResume 0,.relock,.testAwaken]

/-- A model is simulated in between, and the thread is resumed again. -/
private def resumedTwice : List (Event (Fin 2)) :=
  resumedOnce ++ [.clearAwaken,.startSchedulerControlledModelSimulation,.resumeModelSimulation,.clearAwaken,
    .blockUntilModelSimulationEnd,.testSimulatingModel,.notifyModelSimulationEnd,.relock,.testSimulatingModel,
    .blockHereUntilSignaled,.testAwaken,.waitForThreadToBlock 1,.lock 1,.onThreadResumeByManager 1,
    .signalBlockedThreadToResume 1,.allowSignalledThreadToResume 1]

theorem resumedTwice_returns : ∃ last after, Runs.run step (initial (Fin 2)) resumedTwice = some last ∧
    Runs.Meets step KeepsHandshake (initial (Fin 2)) resumedTwice ∧
    (step last .testAwaken = some after ∨ Runs.run step last [.relock,.testAwaken] = some after) ∧ after.returns = 2 := by
  have checked : (Runs.run step (initial (Fin 2)) resumedTwice).any (fun last =>
      decide (last.resumes = 2 ∧ last.isReturning = true ∧ ∀ s, last.phase s = .idle ∨ last.phase s = .locking)) = true := by
    decide +kernel
  obtain ⟨last,executed,found⟩ := Runs.exists_of_checked checked
  obtain ⟨twice,returning,quiet⟩ := of_decide_eq_true found
  obtain ⟨keeps,returns⟩ := resumes_return_once resumedTwice (by decide +kernel)
  obtain ⟨after,steps,same⟩ := returns last executed returning quiet
  exact ⟨last,after,executed,keeps,steps,same.trans twice⟩

/-- A second resume that finds `awaken` still set, up to its last step. -/
private def resumesAgain : List (Event (Fin 2)) :=
  resumedOnce ++ [.waitForThreadToBlock 1,.onThreadResumeByManager 1,.signalBlockedThreadToResume 1]

/-- A resume that gets the lock while a model is simulated. -/
private def resumesInModel : List (Event (Fin 2)) :=
  [.onThreadSpawn,.startSchedulerControlledModelSimulation,.waitForThreadToBlock 0,.lock 0,.onThreadResumeByManager 0,
    .signalBlockedThreadToResume 0,.allowSignalledThreadToResume 0,.notifyModelSimulationEnd,.blockUntilModelSimulationEnd,
    .testSimulatingModel]

/-- The second resume gives back the lock of the running thread, and is lost when the thread blocks; so is the one
    during the model's simulation. -/
theorem resume_lost :
    (∃ state, Runs.run step (initial (Fin 2)) resumesAgain = some state ∧ state.suspendLock = some .thread ∧
      ¬ KeepsHandshake state (.allowSignalledThreadToResume 1)) ∧
    (∃ last, Runs.run step (initial (Fin 2)) (resumesAgain ++
        [.allowSignalledThreadToResume 1,.blockHereUntilSignaled,.testAwaken]) = some last ∧
      last.resumes = 2 ∧ last.returns = 1 ∧ last.position = .waiting ∧ last.awaken = false ∧ ∀ s, last.phase s = .idle) ∧
    ∃ last, Runs.run step (initial (Fin 2)) (resumesInModel ++ [.blockHereUntilSignaled,.testAwaken]) = some last ∧
      last.resumes = 1 ∧ last.returns = 0 ∧ last.position = .waiting ∧ last.awaken = false ∧ ∀ s, last.phase s = .idle := by
  refine ⟨?_,?_,?_⟩
  · have checked : (Runs.run step (initial (Fin 2)) resumesAgain).any (fun state =>
        decide (state.suspendLock = some .thread ∧ (step state (.allowSignalledThreadToResume 1)).isSome = true)) = true := by
      decide +kernel
    obtain ⟨state,executed,found⟩ := Runs.exists_of_checked checked
    obtain ⟨held,accepted⟩ := of_decide_eq_true found
    refine ⟨state,executed,held,fun keeps => ?_⟩
    have owned := (keeps accepted).owned (.scheduler 1) rfl
    rw [held] at owned
    cases owned
  · have checked : (Runs.run step (initial (Fin 2)) (resumesAgain ++
        [.allowSignalledThreadToResume 1,.blockHereUntilSignaled,.testAwaken])).any (fun last => decide (last.resumes = 2 ∧
          last.returns = 1 ∧ last.position = .waiting ∧ last.awaken = false ∧ ∀ s, last.phase s = .idle)) = true := by
      decide +kernel
    obtain ⟨last,executed,found⟩ := Runs.exists_of_checked checked
    exact ⟨last,executed,of_decide_eq_true found⟩
  · have checked : (Runs.run step (initial (Fin 2)) (resumesInModel ++ [.blockHereUntilSignaled,.testAwaken])).any
        (fun last => decide (last.resumes = 1 ∧ last.returns = 0 ∧ last.position = .waiting ∧ last.awaken = false ∧
          ∀ s, last.phase s = .idle)) = true := by decide +kernel
    obtain ⟨last,executed,found⟩ := Runs.exists_of_checked checked
    exact ⟨last,executed,of_decide_eq_true found⟩

end Vexjine.SuspendLock
