import Vexjine.ManagedThreads
import Vexjine.Runs

/-!
# Threads that suspend themselves

The base manager resets a thread's timeout when the thread suspends itself; the loosely
synchronized one overrides that method, leaves the timeout of an earlier wait in place and
takes a scaled thread to be queued already. Whether `continueThread` resumes the thread
depends on both.
-/

namespace Vexjine.ManagedThreads
set_option linter.unusedSimpArgs false

/-- Whether `continueThread` resumes the thread when it has popped it. -/
def ManagedThread.isResumable (thread : ManagedThread) : Bool :=
  thread.state.isSuspended &&
    (thread.state.timedOut || (decide (thread.state.timeout ≠ 0) && thread.state.isNotAfterInterruptedTimedParking))

namespace System
variable (system : System) (t : Int64) (thread : ManagedThread)

/-- After the override the thread is resumable exactly when it is after the base method, and it is queued once. -/
structure SuspendsAlike : Prop where
  resumable : ∀ base ∈ (system.setSuspendedAndPushToRunnables .base t thread).threadRegistry t,
    ∀ loose ∈ (system.setSuspendedAndPushToRunnables .loose t thread).threadRegistry t,
      loose.isResumable = base.isResumable
  queued : (system.setSuspendedAndPushToRunnables .loose t thread).runnableThreads.count t = 1

/-- The last wait has timed out or left a timeout of a thread that is in no interrupted timed park, and the queue
    holds the thread exactly if the override takes it to. -/
def ReadyToSuspend : Prop :=
  (thread.state.timedOut = true ∨ thread.state.timeout ≠ 0 ∧ thread.state.afterInterruptedTimedParking = false) ∧
    system.runnableThreads.count t = if pushesSuspended .loose thread then 0 else 1

instance : Decidable (system.ReadyToSuspend t thread) := inferInstanceAs (Decidable (_ ∧ _))

section Suspensions
variable {system : System} {t : Int64} {thread : ManagedThread}

private theorem unset_registry : (system.unsetCurrentThreadFromRunningThread t thread).threadRegistry = system.threadRegistry := by
  unfold unsetCurrentThreadFromRunningThread
  split <;> rfl

private theorem unset_runnables : (system.unsetCurrentThreadFromRunningThread t thread).runnableThreads =
    system.runnableThreads := by
  unfold unsetCurrentThreadFromRunningThread
  split <;> rfl

private theorem base_registry (registered : system.threadRegistry t = some thread) :
    (system.setSuspendedAndPushToRunnables .base t thread).threadRegistry t =
      some { thread with state := (thread.state.setSuspended.setTimedOut true).setTimeout (-1) } := by
  simp [setSuspendedAndPushToRunnables,push,onState,onThread,unset_registry,registered]

private theorem loose_registry (registered : system.threadRegistry t = some thread) :
    (system.setSuspendedAndPushToRunnables .loose t thread).threadRegistry t =
      some { thread with state := thread.state.setSuspended } := by
  simp only [setSuspendedAndPushToRunnables]
  split <;> simp [push,onState,onThread,unset_registry,registered]

private theorem loose_count : (system.setSuspendedAndPushToRunnables .loose t thread).runnableThreads.count t =
    system.runnableThreads.count t + if pushesSuspended .loose thread then 1 else 0 := by
  simp only [setSuspendedAndPushToRunnables]
  split <;> simp [push,onState,onThread,unset_runnables]

private theorem base_isResumable :
    ManagedThread.isResumable { thread with state := (thread.state.setSuspended.setTimedOut true).setTimeout (-1) } = true :=
  rfl

private theorem loose_isResumable_iff : ManagedThread.isResumable { thread with state := thread.state.setSuspended } = true ↔
    thread.state.timedOut = true ∨ thread.state.timeout ≠ 0 ∧ thread.state.afterInterruptedTimedParking = false := by
  have suspended : thread.state.setSuspended.isSuspended = true := rfl
  rw [ManagedThread.isResumable,suspended,Bool.true_and,Bool.or_eq_true,Bool.and_eq_true,decide_eq_true_iff]
  exact or_congr Iff.rfl (and_congr Iff.rfl (Iff.of_eq (Bool.not_eq_true' _)))

/-- For every thread and whatever its earlier waits left behind, the managers suspend it alike exactly when the
    override finds a timeout that lets it go on, and the queue as it takes it to be. -/
theorem suspendsAlike_iff (registered : system.threadRegistry t = some thread) :
    system.SuspendsAlike t thread ↔ system.ReadyToSuspend t thread := by
  have queued : (system.setSuspendedAndPushToRunnables .loose t thread).runnableThreads.count t = 1 ↔
      system.runnableThreads.count t = if pushesSuspended .loose thread then 0 else 1 := by
    rw [loose_count]
    split <;> omega
  rw [ReadyToSuspend,← queued,← loose_isResumable_iff]
  constructor
  · intro alike
    have same := alike.resumable _ (base_registry registered) _ (loose_registry registered)
    rw [base_isResumable] at same
    exact ⟨same,alike.queued⟩
  · rintro ⟨resumable,once⟩
    refine ⟨?_,once⟩
    rintro base isBase loose isLoose
    cases (base_registry registered).symm.trans isBase
    cases (loose_registry registered).symm.trans isLoose
    rw [base_isResumable]
    exact resumable

/-- A thread that has just been spawned and runs. -/
private def newThread : ManagedThread := spawned 0 0

theorem new_thread_suspends_alike : (System.start.add 1 newThread).threadRegistry 1 = some newThread ∧
    ((System.start.add 1 newThread).SuspendsAlike 1 newThread ↔ (System.start.add 1 newThread).ReadyToSuspend 1 newThread) :=
  ⟨rfl,suspendsAlike_iff rfl⟩

/-- A thread is interrupted in a timed wait and goes on, then hands a lock over, which sets its timeout to 0. -/
private def interruptedThenReleases : List Step :=
  [⟨1,.spawn 0 0 false⟩,⟨1,.timedWait 3 5 false⟩,⟨1,.interrupt true⟩,
    ⟨1,.continueThread 0 ⟨true,false,true,true,.finished⟩⟩,⟨1,.returnFromBlock true⟩,⟨1,.releaseLock⟩]

/-- When it suspends itself now, the loosely synchronized manager never resumes it. -/
theorem interrupted_thread_not_resumable : ¬ ∀ (events : List Step) (system : System) (t : Int64) (thread : ManagedThread),
    Runs.run (System.step .loose .normal) .start events = some system → system.threadRegistry t = some thread →
    system.SuspendsAlike t thread := by
  intro claimed
  obtain ⟨system,executed,checked⟩ := @Runs.exists_of_checked _ _ (System.step .loose .normal)
    (fun system : System => (system.threadRegistry 1).any fun thread : ManagedThread =>
      !thread.state.timedOut && decide (thread.state.timeout = 0))
    .start interruptedThenReleases (by decide +kernel)
  simp only [Option.any_eq_true,Bool.and_eq_true,Bool.not_eq_true',decide_eq_true_eq] at checked
  obtain ⟨thread,registered,notTimedOut,noTimeout⟩ := checked
  have alike := claimed interruptedThenReleases system 1 thread executed registered
  have same := alike.resumable _ (base_registry registered) _ (loose_registry registered)
  rw [base_isResumable,loose_isResumable_iff] at same
  rcases same with timedOut | ⟨timeout,-⟩
  · simp [notTimedOut] at timedOut
  · exact timeout noTimeout

end Suspensions

end System

end Vexjine.ManagedThreads
