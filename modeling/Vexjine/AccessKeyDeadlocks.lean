import Vexjine.AccessKeys

/-!
# Deadlocks of the access keys

The event handlers of any number of threads and the suspend and continue steps of
the schedulers, each as its operations on access keys, executed in any order. A
handler takes the key of a second thread while it holds its own, so two handlers
that target each other deadlock. As long as no handler starts whose target leads
back to its own thread, no cycle of waits is reached.
-/

namespace Vexjine.AccessKeyDeadlocks
open Vexjine.LockPrograms (Operation State idle follow follow_append DeadlockFree InOrder Fits Targets WaitsFor)
open Vexjine.AccessKeys (Handler Reading Loose SignalPath)
open Relation (TransGen ReflTransGen)
set_option linter.unusedSimpArgs false
set_option linter.unusedSectionVars false

variable {Thread : Type*} [DecidableEq Thread]

/-! ## The parties and their steps -/

/-- Simulated threads, the schedulers, and threads that the simulation does not know. -/
inductive Party (Thread : Type*)
  | thread (state : Thread)
  | scheduler (managerId : Nat)
  | unsimulated (id : Nat)
  deriving DecidableEq

/-- Every simulated thread has an access key. -/
def ownKey : Party Thread → Option Thread
  | .thread state => some state
  | .scheduler _ | .unsimulated _ => none

/-- A party starts a handler or a step, executes its next operation, or gives up its timed lock. -/
inductive Event (Thread : Type*)
  | handle (state : Thread) (handler : Handler Thread)
  | unparkFromOutside (id : Nat) (threadToUnpark : Thread)
  | suspendThread (managerId : Nat) (state : Thread)
  | continueThread (managerId : Nat) (tops : List Thread)
  | advance (party : Party Thread)
  | giveUp (party : Party Thread)

/-- Without a timeout, the key is kept until the thread has answered the signal. -/
def suspendThread (state : Thread) : List (Operation Thread) := [.timedLock state,.unlock state]

/-- Goes on with the next top of the queue while that has changed since the last look at it. -/
def continueThread (tops : List Thread) : List (Operation Thread) :=
  tops.flatMap fun state => [.lock state,.unlock state]

/-- `onUnpark` by a thread that the simulation does not know. -/
def unparkFromOutside (threadToUnpark : Thread) : List (Operation Thread) :=
  [.lock threadToUnpark,.unlock threadToUnpark]

def Event.lowered : Event Thread → LockPrograms.Event (Party Thread) Thread
  -- the scheduler's signal interrupts what the thread is doing
  | .handle state (.onSignalledFromScheduler path) =>
    .interrupt (.thread state) ((Handler.onSignalledFromScheduler path).operations state)
  | .handle state handler => .start (.thread state) (handler.operations state)
  | .unparkFromOutside id threadToUnpark => .start (.unsimulated id) (AccessKeyDeadlocks.unparkFromOutside threadToUnpark)
  | .suspendThread managerId state => .start (.scheduler managerId) (AccessKeyDeadlocks.suspendThread state)
  | .continueThread managerId tops => .start (.scheduler managerId) (AccessKeyDeadlocks.continueThread tops)
  | .advance party => .advance party
  | .giveUp party => .giveUp party

def step (state : State (Party Thread) Thread) (event : Event Thread) : Option (State (Party Thread) Thread) :=
  LockPrograms.step state event.lowered

/-- No thread that the handler targets leads back to the handler's own one over targets, and no thread
    is interrupted in order to suspend while it holds its own key. -/
def Apart (state : State (Party Thread) Thread) : Event Thread → Prop
  | .handle thread (.onSignalledFromScheduler path) =>
    ∀ blocks, path = .suspends blocks → state.holder thread ≠ some (.thread thread)
  | .handle thread handler =>
    ∀ other ∈ handler.targets, ¬ ReflTransGen (Targets ownKey state) (.thread other) (.thread thread)
  | .unparkFromOutside .. | .suspendThread .. | .continueThread .. | .advance _ | .giveUp _ => True

/-! ## What a handler holds -/

/-- Where freeing the key that is not held changes nothing, every path of every handler is balanced. -/
private theorem balanced_of_lenient {Situation : Type*} {state : Thread} (reading : Reading Situation state)
    (handler : Handler Thread)
    (second : ∀ other ∈ handler.targets, ∀ loose, reading.read reading.holding
      ([.lock other] ++ AccessKeys.getCurrentlyControllingManagerOf state loose ++ [.unlock other]) = some reading.holding)
    (lenient : reading.read reading.without [.unlock state] = some reading.without) :
    reading.read reading.without (handler.operations state) = some reading.without := by
  have freed : ∀ rest, reading.read reading.without (.unlock state :: rest) = reading.read reading.without rest := by
    intro rest
    rw [← List.singleton_append,reading.append,lenient,Option.bind_some]
  have suspended : ∀ blocks, reading.read reading.without
      (AccessKeys.suspendCurrentThread state blocks ++ [.unlock state]) = some reading.without := by
    intro blocks
    cases blocks with
    | zero => exact lenient
    | succ blocks =>
      rw [AccessKeys.suspendCurrentThread,List.replicate_succ,List.flatten_cons,AccessKeys.onBlockedWaitingInVex,
        List.cons_append,List.cons_append,freed,List.singleton_append,List.cons_append,reading.lock_cons,reading.append]
      exact (congrArg (·.bind fun middle => reading.read middle [.unlock state]) (reading.suspended blocks)).trans
        reading.unlock
  by_cases unbalanced : handler.Unbalanced
  · cases handler with
    | onSignalledFromScheduler path =>
      cases path with
      | leavesNativeWaiting path =>
        rw [Handler.operations,AccessKeys.VexThreadState.onSignalledFromScheduler,AccessKeys.suspendLooseCurrentThread]
        split
        · exact suspended path.blocks
        · exact suspended (path.blocks + 1)
      | _ => cases unbalanced
    | onPark entry path =>
      cases path with
      | untimed again =>
        simp [Handler.operations,AccessKeys.VexThreadState.onWrappedWaitingStart,AccessKeys.onVexExit,lenient]
      | _ => cases unbalanced
    | _ => cases unbalanced
  · exact reading.balanced handler second unbalanced

/-- The reading of the keys held, for a thread that holds others beside its own. -/
private def heldKeys (state : Thread) (held : Finset Thread) (free : state ∉ held) : Reading (Finset Thread) state where
  read := follow (some state)
  nil _ := rfl
  append := follow_append (some state)
  without := held
  holding := insert state held
  lock := by simp [follow,free]
  unlock := by simp [follow,Finset.erase_insert free]

private theorem heldKeys_lenient (state : Thread) (held : Finset Thread) (free : state ∉ held) :
    follow (some state) held [.unlock state] = some held := by
  simp [follow,Finset.erase_eq_of_notMem free]

/-- A thread that holds no key but its own takes that of another thread. -/
private theorem follow_second {state other : Thread} (different : other ≠ state) (loose : List Loose) :
    follow (some state) {state} ([.lock other] ++ AccessKeys.getCurrentlyControllingManagerOf state loose ++ [.unlock other]) =
      some {state} := by
  have locked : follow (some state) {state} [.lock other] = some {other,state} := by simp [follow,different]
  have manager : follow (some state) {other,state} (AccessKeys.getCurrentlyControllingManagerOf state loose) =
      some {other,state} := by
    have found : follow (some state) {state,other} _ = some {state,other} :=
      (heldKeys state {other} (by simpa using different.symm)).manager loose
    rwa [Finset.pair_comm] at found
  rw [follow_append,follow_append,locked,Option.bind_some,manager,Option.bind_some]
  simp [follow,Finset.erase_insert (show other ∉ ({state} : Finset Thread) by simpa using different)]

/-- A handler follows the order of its thread from nothing to nothing. -/
private theorem handler_follows (state : Thread) (handler : Handler Thread) (foreign : state ∉ handler.targets) :
    follow (some state) ∅ (handler.operations state) = some ∅ := by
  refine balanced_of_lenient (heldKeys state ∅ (by simp)) handler (fun other member loose => ?_)
    (heldKeys_lenient state ∅ (by simp))
  refine follow_second ?_ loose
  rintro rfl
  exact foreign member

/-- The signal handler frees the thread's key at most. -/
private theorem signal_follows {state : Thread} {held : Finset Thread} (path : SignalPath)
    (apart : ∀ blocks, path = .suspends blocks → state ∉ held) :
    ∃ less, less ⊆ held ∧
      follow (some state) held ((Handler.onSignalledFromScheduler path).operations state) = some less := by
  by_cases free : state ∉ held
  · refine ⟨held,le_rfl,?_⟩
    exact balanced_of_lenient (heldKeys state held free) (.onSignalledFromScheduler path)
      (fun other member => by cases member) (heldKeys_lenient state held free)
  · cases path with
    | suspends blocks => exact absurd (apart blocks rfl) free
    | leavesNativeWaiting path =>
      refine ⟨held.erase state,Finset.erase_subset state held,?_⟩
      have suspended : ∀ blocks, follow (some state) held
          (AccessKeys.suspendCurrentThread state blocks ++ [.unlock state]) = some (held.erase state) := by
        intro blocks
        have same : insert state (held.erase state) = held := Finset.insert_erase (not_not.mp free)
        have stays : follow (some state) (insert state (held.erase state)) _ = some (insert state (held.erase state)) :=
          (heldKeys state (held.erase state) (Finset.notMem_erase state held)).suspended blocks
        rw [same] at stays
        rw [follow_append,stays]
        rfl
      rw [Handler.operations,AccessKeys.VexThreadState.onSignalledFromScheduler,AccessKeys.suspendLooseCurrentThread]
      split
      · exact suspended path.blocks
      · exact suspended (path.blocks + 1)
    | _ => exact ⟨held,le_rfl,rfl⟩

/-! ## What a handler locks -/

/-- The reading of operations that lock nothing but the thread's own key and those of its targets. -/
private def lockedKeys (state : Thread) (targets : List Thread) : Reading Unit state where
  read _ operations :=
    if operations.all fun operation => operation.locks.all fun key => key ∈ state :: targets then some () else none
  nil _ := rfl
  append _ first second := by
    rw [List.all_append]
    cases first.all fun operation => operation.locks.all fun key => key ∈ state :: targets
    · rfl
    · simp
  without := ()
  holding := ()
  lock := by simp [Operation.locks]
  unlock := by simp [Operation.locks]

private theorem lockedKeys_reads {state : Thread} {targets : List Thread} {operations : List (Operation Thread)} :
    (lockedKeys state targets).read () operations = some () ↔
      ∀ operation ∈ operations, ∀ key, operation.locks = some key → key = state ∨ key ∈ targets := by
  simp [lockedKeys,Option.all_eq_true,or_iff_not_imp_left]

private theorem handler_locks (state : Thread) (handler : Handler Thread) (operation : Operation Thread)
    (member : operation ∈ handler.operations state) (key : Thread) (locks : operation.locks = some key) :
    key = state ∨ key ∈ handler.targets := by
  refine lockedKeys_reads.mp ?_ operation member key locks
  refine balanced_of_lenient (lockedKeys state handler.targets) handler (fun other target loose => ?_) ?_
  · have manager := lockedKeys_reads.mp ((lockedKeys state handler.targets).manager loose)
    refine lockedKeys_reads.mpr fun operation member key locks => ?_
    simp only [List.mem_append,List.mem_singleton] at member
    rcases member with (rfl | inner) | rfl
    · cases locks
      exact .inr target
    · exact manager operation inner key locks
    · cases locks
  · exact lockedKeys_reads.mpr (by simp [Operation.locks])

/-! ## Runs -/

private theorem distinct (p q : Party Thread) (key : Thread) (first : ownKey p = some key) (second : ownKey q = some key) :
    p = q := by
  cases p with
  | thread state =>
    cases q with
    | thread other =>
      cases first
      cases second
      rfl
    | _ => cases second
  | _ => cases first

/-- Nobody targets a party without a key. -/
private theorem not_reaches {state : State (Party Thread) Thread} {other party : Party Thread} {key : Thread}
    (owns : ownKey other = some key) (keyless : ownKey party = none) :
    ¬ ReflTransGen (Targets ownKey state) other party := by
  intro path
  rcases ReflTransGen.cases_tail path with rfl | ⟨_,-,key',owns',-⟩
  · rw [keyless] at owns
    cases owns
  · rw [keyless] at owns'
    cases owns'

/-- A party without a key locks and unlocks one thread's key after the other. -/
private theorem follow_continue (tops : List Thread) : follow none ∅ (continueThread tops) = some ∅ := by
  induction tops with
  | nil => rfl
  | cons state rest ih =>
    rw [continueThread,List.flatMap_cons,follow_append]
    have passed : follow (none : Option Thread) ∅ [.lock state,.unlock state] = some ∅ := by simp [follow]
    rw [passed]
    exact ih

private theorem keyless_fits {state : State (Party Thread) Thread} {party : Party Thread} (keyless : ownKey party = none)
    {operations : List (Operation Thread)} (follows : follow none ∅ operations = some ∅) :
    Fits ownKey state (.start party operations) :=
  ⟨by rw [keyless]; exact follows,fun _ _ owns _ _ => not_reaches owns keyless⟩

private theorem handler_fits {state : State (Party Thread) Thread} {thread : Thread} {handler : Handler Thread}
    (apart : ∀ other ∈ handler.targets, ¬ ReflTransGen (Targets ownKey state) (.thread other) (.thread thread)) :
    Fits ownKey state (.start (.thread thread) (handler.operations thread)) := by
  refine ⟨handler_follows thread handler fun self => apart thread self .refl,?_⟩
  rintro other key owns foreign ⟨operation,member,locks⟩
  have target : key ∈ handler.targets :=
    (handler_locks thread handler operation member key locks).resolve_left fun mine => foreign (by rw [mine]; rfl)
  obtain rfl : other = .thread key := distinct other (.thread key) key owns rfl
  exact apart key target

/-- Every step that keeps targets apart fits the order of the keys. -/
private theorem fits_of_apart {state : State (Party Thread) Thread} {event : Event Thread} (apart : Apart state event) :
    Fits ownKey state event.lowered := by
  cases event with
  | handle thread handler =>
    cases handler with
    | onSignalledFromScheduler path =>
      refine ⟨fun held exactly => signal_follows path fun blocks suspends member => ?_,fun operation member key locks => ?_⟩
      · exact apart blocks suspends ((exactly thread).mp member)
      · rcases handler_locks thread _ operation member key locks with rfl | target
        · rfl
        · cases target
    | _ => exact handler_fits apart
  | unparkFromOutside id threadToUnpark => exact keyless_fits rfl (by simp [unparkFromOutside,follow])
  | suspendThread managerId thread => exact keyless_fits rfl (by simp [suspendThread,follow])
  | continueThread managerId tops => exact keyless_fits rfl (follow_continue tops)
  | advance party => trivial
  | giveUp party => trivial

/-- Runs whose handlers start only with targets that do not lead back to them reach no cycle of
    parties that each hold an access key and wait for the one held by the next. -/
theorem deadlockFree_of_apart (events : List (Event Thread)) (last : State (Party Thread) Thread)
    (executed : Runs.run step idle events = some last) (apart : Runs.Meets step Apart idle events) : DeadlockFree last := by
  have order : InOrder ownKey last := Runs.invariant_of_meets
    (fun _ _ _ inv holds stepped => LockPrograms.step_inOrder inv (fits_of_apart holds) stepped)
    (LockPrograms.inOrder_idle ownKey) apart executed
  exact LockPrograms.deadlockFree_of_ordered order.ordered distinct order.acyclic

/-- A thread that does nothing and holds nothing leads to no other one. -/
private theorem resting_apart {state : State (Party Thread) Thread} {other thread : Thread} (different : other ≠ thread)
    (rests : state.todo (.thread other) = []) (free : ∀ key, state.holder key ≠ some (.thread other)) :
    ¬ ReflTransGen (Targets ownKey state) (.thread other) (.thread thread) := by
  intro path
  rcases ReflTransGen.cases_head path with same | ⟨_,⟨key,-,-,busy⟩,-⟩
  · cases same
    exact different rfl
  · rcases busy with holds | ⟨operation,member,-⟩
    · exact free key holds
    · rw [rests] at member
      cases member

/-- Two threads unpark, or release a lock to, a third one at the same time, while a scheduler suspends
    the first of them. -/
theorem unpark_and_release_deadlockFree : ∃ last, Runs.run step (idle : State (Party Nat) Nat)
    [.handle 1 (.onUnpark none (some 2) []),.advance (.thread 1),.handle 3 (.onReleasingLock none (some 2)),
      .suspendThread 0 1] = some last ∧ DeadlockFree last := by
  have resting : ∀ thread next, Runs.run step (idle : State (Party Nat) Nat)
      [.handle 1 (.onUnpark none (some 2) []),.advance (.thread 1)] = some next → 2 ≠ thread →
      ¬ ReflTransGen (Targets ownKey next) (.thread 2) (.thread thread) := by
    rintro thread next executed different
    cases executed
    refine resting_apart different rfl fun key => ?_
    by_cases own : key = 1
    · subst own
      decide
    · simp [State.setHolder,State.setTodo,idle,own]
  have apart : Runs.Meets step Apart (idle : State (Party Nat) Nat)
      [.handle 1 (.onUnpark none (some 2) []),.advance (.thread 1),.handle 3 (.onReleasingLock none (some 2)),
        .suspendThread 0 1] := by
    refine ⟨fun other member => ?_,fun next first => ⟨trivial,fun next second => ⟨fun other member => ?_,fun _ _ =>
      ⟨trivial,fun _ _ => trivial⟩⟩⟩⟩
    · obtain rfl : other = 2 := by simpa [Handler.targets] using member
      exact resting_apart (by decide) rfl fun key => by simp [idle]
    · obtain rfl : other = 2 := by simpa [Handler.targets] using member
      refine resting 3 next ?_ (by decide)
      exact (Runs.run_cons _ _ _ _).mpr ⟨_,first,(Runs.run_cons _ _ _ _).mpr ⟨_,second,rfl⟩⟩
  exact ⟨_,rfl,deadlockFree_of_apart _ _ rfl apart⟩

/-- Two threads that unpark each other hold their own keys and wait for each other's. -/
theorem mutual_unpark_deadlocks : ¬ ∀ (events : List (Event Nat)) (last : State (Party Nat) Nat),
    Runs.run step idle events = some last → DeadlockFree last := by
  intro claimed
  refine claimed [.handle 0 (.onUnpark none (some 1) []),.handle 1 (.onUnpark none (some 0) []),
    .advance (.thread 0),.advance (.thread 1)] _ rfl (.thread 0) ?_
  exact .tail (.single ⟨_,_,1,rfl,rfl,rfl⟩) ⟨_,_,0,rfl,rfl,rfl⟩

end Vexjine.AccessKeyDeadlocks
