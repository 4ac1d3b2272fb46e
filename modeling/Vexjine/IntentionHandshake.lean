import Vexjine.Runs
import Vexjine.VexThreadState

/-!
# The intention of a signalled thread

A scheduler that locks a thread's access key, signals the thread and waits for its
intention; the signal handler, which looks at the thread's state in three steps
and answers in some of its branches; and the polls of native waiting threads,
which send the same signal and wait for nothing. The answer is one shared slot.
Signals of one kind do not queue up, and the handler can be interrupted by itself.
-/

namespace Vexjine.IntentionHandshake
set_option linter.unusedSimpArgs false

inductive Intention
  | toBeSuspended
  | toKeepOnRunning
  | toBeDisregarded
  deriving DecidableEq

/-- Who may hold the thread's access key: the thread, a scheduler, or another thread's handler. -/
inductive Holder
  | thread
  | scheduler (managerId : Nat)
  | other (id : Nat)
  deriving DecidableEq

/-- How far the signal handler has come; after its answer only the branches that go on are left. -/
inductive Position
  | pollsModel
  | checksNativeWaiting
  | checksManager
  | answersPoll
  | answersRequest
  | becomesNativeWaiting
  | suspended
  | leavesNativeWaiting
  deriving DecidableEq

/-- An execution of the signal handler. No step reads `asked`, which tells whether a scheduler that
    waits for an answer has sent the signal, alone or together with a poll. -/
structure Handler where
  position : Position
  asked : Bool
  deriving DecidableEq

/-- One thread and the schedulers' dealings with it. -/
structure State where
  currentState : Code
  threadCurrentlyControllingManager : Option Nat
  sharedAccessKey : Option Holder
  /-- `none` is `CLEAR_SUSPENDFLAG`. -/
  suspendFlag : Option Intention
  /-- The schedulers in `getSuspendingThreadIntention`. -/
  waiting : List Nat
  /-- A signal that is not delivered yet, and whether a waiting scheduler has sent it. -/
  signal : Option Bool
  /-- The innermost execution is the first one. -/
  handlers : List Handler
  /-- How often the thread is among `nativeWaitingThreadsPQueue`. -/
  queued : Nat
  currentlyPolledForWhetherItIsNativeWaiting : Bool
  deriving DecidableEq

/-- A thread as its registration leaves it. -/
def initial : State where
  currentState := .registering
  threadCurrentlyControllingManager := none
  sharedAccessKey := none
  suspendFlag := none
  waiting := []
  signal := none
  handlers := []
  queued := 0
  currentlyPolledForWhetherItIsNativeWaiting := false

/-- What schedulers, the signal handler, the thread's own event handlers and other threads do. -/
inductive Event
  | suspendThread (managerId : Nat)
  | suspendThreadTimesOut (managerId : Nat)
  | pollThreadToCheckIfActuallyRunning (managerId : Nat)
  | getSuspendingThreadIntention (managerId : Nat)
  | pollNativeWaitingThreads
  | deliver
  | proceed (isThreadStillBlockedInNativeWait : Bool)
  | notifySchedulerForIntention (intention : Intention)
  | lockShareResourceAccessKey (holder : Holder)
  | unlockShareResourceAccessKey (holder : Holder)
  | suspendLooseCurrentThread
  | setRunningThread (managerId : Nat)
  | setNewState (newState : Code)
  deriving DecidableEq

namespace State

/-- `VexThreadState::setNativeWaiting`. -/
def setNativeWaiting (state : State) : State :=
  { state with currentState := .nativeWaiting,threadCurrentlyControllingManager := none }

/-- A scheduler locks the key, signals the thread and waits. -/
def ask (state : State) (managerId : Nat) : Option State :=
  if state.sharedAccessKey = none ∧ managerId ∉ state.waiting then
    some { state with
      sharedAccessKey := some (.scheduler managerId)
      signal := some true
      waiting := managerId :: state.waiting }
  else none

/-- A scheduler that waits does nothing else. -/
def canAct (state : State) : Holder → Bool
  | .scheduler managerId => managerId ∉ state.waiting
  | .thread | .other _ => true

/-- The innermost handler up to its answer, and from there to its return. -/
def proceed (state : State) (blocked : Bool) : Option State :=
  match state.handlers with
  | [] => none
  | ⟨.pollsModel,asked⟩ :: rest =>
    if state.currentState = .afterModelSimWaitingForRealCode then some { state with handlers := ⟨.answersPoll,asked⟩ :: rest }
    else some { state with handlers := ⟨.checksNativeWaiting,asked⟩ :: rest }
  | ⟨.checksNativeWaiting,asked⟩ :: rest =>
    if state.currentState = .nativeWaiting then
      if blocked then some { state with handlers := rest,currentlyPolledForWhetherItIsNativeWaiting := false }
      else some { state with handlers := ⟨.leavesNativeWaiting,asked⟩ :: rest }
    else some { state with handlers := ⟨.checksManager,asked⟩ :: rest }
  | ⟨.checksManager,asked⟩ :: rest =>
    match state.threadCurrentlyControllingManager with
    | none => some { state with handlers := rest }
    | some _ => some { state with handlers := ⟨.answersRequest,asked⟩ :: rest }
  | ⟨.becomesNativeWaiting,_⟩ :: rest =>
    some { state.setNativeWaiting with
      handlers := rest
      currentlyPolledForWhetherItIsNativeWaiting := false
      queued := state.queued + 1 }
  | ⟨.suspended,_⟩ :: rest => some { state with handlers := rest }
  | ⟨.leavesNativeWaiting,_⟩ :: rest => some { state with sharedAccessKey := none,handlers := rest }
  | ⟨.answersPoll,_⟩ :: _ | ⟨.answersRequest,_⟩ :: _ => none

/-- The innermost handler answers. -/
def notifySchedulerForIntention (state : State) (intention : Intention) : Option State :=
  match state.handlers with
  | ⟨.answersPoll,_⟩ :: rest =>
    if intention = .toBeSuspended then none else some { state with suspendFlag := some intention,handlers := rest }
  | ⟨.answersRequest,asked⟩ :: rest =>
    match intention with
    | .toBeDisregarded =>
      some { state with suspendFlag := some intention,handlers := ⟨.becomesNativeWaiting,asked⟩ :: rest }
    | .toBeSuspended => some { state with
        currentState := .suspended
        suspendFlag := some intention
        handlers := ⟨.suspended,asked⟩ :: rest }
    | .toKeepOnRunning => some { state with suspendFlag := some intention,handlers := rest }
  | _ => none

end State

def step (state : State) : Event → Option State
  | .suspendThread managerId => state.ask managerId
  -- the timeout of the lock; the thread is not entered into the queue of the polls
  | .suspendThreadTimesOut _ => some state.setNativeWaiting
  | .pollThreadToCheckIfActuallyRunning managerId =>
    if state.currentState = .afterModelSimWaitingForRealCode then state.ask managerId else none
  | .getSuspendingThreadIntention managerId =>
    if managerId ∈ state.waiting ∧ state.suspendFlag ≠ none then
      some { state with suspendFlag := none,waiting := state.waiting.erase managerId }
    else none
  | .pollNativeWaitingThreads =>
    if 0 < state.queued ∧ state.currentlyPolledForWhetherItIsNativeWaiting = false then
      some { state with
        currentlyPolledForWhetherItIsNativeWaiting := true
        signal := some (decide (state.signal = some true)) }
    else none
  | .deliver => state.signal.map fun asked =>
      { state with signal := none,handlers := ⟨.pollsModel,asked⟩ :: state.handlers }
  | .proceed blocked => state.proceed blocked
  | .notifySchedulerForIntention intention => state.notifySchedulerForIntention intention
  | .lockShareResourceAccessKey holder =>
    if state.canAct holder = true ∧ state.sharedAccessKey = none then some { state with sharedAccessKey := some holder } else none
  -- frees the key whoever holds it
  | .unlockShareResourceAccessKey holder =>
    if state.canAct holder = true then some { state with sharedAccessKey := none } else none
  | .suspendLooseCurrentThread => some { state with currentState := .suspended,queued := state.queued - 1 }
  | .setRunningThread managerId =>
    some { state with currentState := .running,threadCurrentlyControllingManager := some managerId }
  | .setNewState newState => if newState = .nativeWaiting then none else some { state with currentState := newState }

/-! ## The condition -/

/-- The key is not taken from somebody else. -/
def MayUnlock (state : State) (holder : Holder) : Prop :=
  state.sharedAccessKey = none ∨ state.sharedAccessKey = some holder

instance (state : State) (holder : Holder) : Decidable (MayUnlock state holder) :=
  inferInstanceAs (Decidable (_ ∨ _))

/-- A request's signal finds the thread at the end of a model, or not native waiting and with a manager;
    a signal that is only a poll finds it native waiting. -/
def Finds (state : State) (handler : Handler) : Prop :=
  match handler.position with
  | .pollsModel => handler.asked = false → state.currentState ≠ .afterModelSimWaitingForRealCode
  | .checksNativeWaiting => handler.asked = true ↔ state.currentState ≠ .nativeWaiting
  | .checksManager => state.threadCurrentlyControllingManager ≠ none
  | .leavesNativeWaiting => MayUnlock state .thread
  | .answersPoll | .answersRequest | .becomesNativeWaiting | .suspended => True

instance (state : State) : (handler : Handler) → Decidable (Finds state handler)
  | ⟨.pollsModel,_⟩ => inferInstanceAs (Decidable (_ → _))
  | ⟨.checksNativeWaiting,_⟩ => inferInstanceAs (Decidable (_ ↔ _))
  | ⟨.checksManager,_⟩ => inferInstanceAs (Decidable (_ ≠ _))
  | ⟨.leavesNativeWaiting,_⟩ => inferInstanceAs (Decidable (MayUnlock state .thread))
  | ⟨.answersPoll,_⟩ | ⟨.answersRequest,_⟩ | ⟨.becomesNativeWaiting,_⟩ | ⟨.suspended,_⟩ => inferInstanceAs (Decidable True)

/-- The signals find the thread in the states they are meant for, and nobody frees a key that
    somebody else holds. -/
def Expected (state : State) : Event → Prop
  | .proceed _ => ∀ handler ∈ state.handlers.head?, Finds state handler
  | .unlockShareResourceAccessKey holder => MayUnlock state holder
  | _ => True

instance (state : State) : (event : Event) → Decidable (Expected state event)
  | .proceed _ => inferInstanceAs (Decidable (∀ handler ∈ state.handlers.head?, Finds state handler))
  | .unlockShareResourceAccessKey holder => inferInstanceAs (Decidable (MayUnlock state holder))
  | .suspendThread _ | .suspendThreadTimesOut _ | .pollThreadToCheckIfActuallyRunning _
  | .getSuspendingThreadIntention _ | .pollNativeWaitingThreads | .deliver | .notifySchedulerForIntention _
  | .lockShareResourceAccessKey _ | .suspendLooseCurrentThread | .setRunningThread _ | .setNewState _ =>
    inferInstanceAs (Decidable True)

/-! ## The invariant -/

def Position.answers : Position → Bool
  | .answersPoll | .answersRequest => true
  | _ => false

/-- The handler has not answered and not yet taken a branch without an answer. -/
def Position.unanswered : Position → Bool
  | .pollsModel | .checksNativeWaiting | .checksManager | .answersPoll | .answersRequest => true
  | .becomesNativeWaiting | .suspended | .leavesNativeWaiting => false

/-- The handler runs for a request and has not answered it. -/
def Handler.owes (handler : Handler) : Bool := handler.asked && handler.position.unanswered

/-- Signals of requests that are not delivered, and handlers that owe an answer. -/
def owed (state : State) : Nat := (if state.signal = some true then 1 else 0) + state.handlers.countP Handler.owes

/-- At most one scheduler waits, with the key; as long as it waits in vain exactly one answer is owed
    to it, else none; the slot is empty where nobody waits; and only a request brings the handler past
    its second look. -/
structure Invariant (state : State) : Prop where
  alone : state.waiting = [] ∨ ∃ managerId, state.waiting = [managerId] ∧
    state.sharedAccessKey = some (.scheduler managerId)
  clear : state.waiting = [] → state.suspendFlag = none
  owing : owed state = if state.waiting ≠ [] ∧ state.suspendFlag = none then 1 else 0
  asked : ∀ handler ∈ state.handlers, handler.position = .checksManager ∨ handler.position.answers = true →
    handler.asked = true

variable {state next : State}

theorem invariant_initial : Invariant initial := ⟨.inl rfl,fun _ => rfl,rfl,by simp [initial]⟩

/-- Steps that leave the handshake's own fields alone. -/
theorem invariant_of_same (inv : Invariant state) (waiting : next.waiting = state.waiting)
    (key : next.sharedAccessKey = state.sharedAccessKey) (flag : next.suspendFlag = state.suspendFlag)
    (signal : next.signal = state.signal) (handlers : next.handlers = state.handlers) : Invariant next := by
  refine ⟨?_,?_,?_,?_⟩
  · rw [waiting,key]
    exact inv.alone
  · rw [waiting,flag]
    exact inv.clear
  · rw [owed,signal,handlers,waiting,flag]
    exact inv.owing
  · rw [handlers]
    exact inv.asked

theorem invariant_ask {managerId : Nat} (inv : Invariant state) (asks : state.ask managerId = some next) :
    Invariant next ∧ state.waiting = [] ∧ next.waiting = [managerId] ∧ next.suspendFlag = none := by
  simp only [State.ask,Option.ite_none_right_eq_some,Option.some.injEq] at asks
  obtain ⟨⟨free,-⟩,rfl⟩ := asks
  have nobody : state.waiting = [] := inv.alone.resolve_right fun ⟨other,_,held⟩ => by
    rw [free] at held
    cases held
  have flag := inv.clear nobody
  have none : owed state = 0 := by simpa [nobody] using inv.owing
  refine ⟨⟨.inr ⟨managerId,by simp [nobody]⟩,by simp,?_,inv.asked⟩,nobody,by simp [nobody],flag⟩
  have handlers : state.handlers.countP Handler.owes = 0 := by
    unfold owed at none
    omega
  simp [owed,handlers,flag]

/-- The key of the scheduler that waits is freed by nobody. -/
theorem invariant_unlock {holder : Holder} (inv : Invariant state) (acts : state.canAct holder = true)
    (may : MayUnlock state holder) : Invariant { state with sharedAccessKey := none } := by
  refine ⟨.inl ?_,inv.clear,inv.owing,inv.asked⟩
  refine inv.alone.resolve_right fun ⟨managerId,waits,held⟩ => ?_
  rcases may with free | mine
  · rw [free] at held
    cases held
  · rw [held,Option.some.injEq] at mine
    subst mine
    simp [State.canAct,waits] at acts

/-- The innermost handler moves on, or returns, without an answer: one that owes an answer still does. -/
private theorem invariant_move {handler : Handler} {rest moved : List Handler} (inv : Invariant state)
    (shape : state.handlers = handler :: rest) (count : moved.countP Handler.owes = state.handlers.countP Handler.owes)
    (asked : ∀ other ∈ moved, other ∈ rest ∨ (other.position = .checksManager ∨ other.position.answers = true →
      other.asked = true)) : Invariant { state with handlers := moved } := by
  refine ⟨inv.alone,inv.clear,?_,fun other member late => ?_⟩
  · rw [owed,count]
    exact inv.owing
  · rcases asked other member with old | new
    · exact inv.asked other (by rw [shape]; exact List.mem_cons_of_mem _ old) late
    · exact new late

theorem invariant_proceed {blocked : Bool} (inv : Invariant state) (expected : Expected state (.proceed blocked))
    (stepped : state.proceed blocked = some next) : Invariant next := by
  cases shape : state.handlers with
  | nil => simp [State.proceed,shape] at stepped
  | cons handler rest =>
    have finds : Finds state handler := expected handler (by simp [shape])
    obtain ⟨position,asked⟩ := handler
    have moves : ∀ newPosition, newPosition.unanswered = position.unanswered →
        (newPosition = .checksManager ∨ newPosition.answers = true → asked = true) →
        Invariant { state with handlers := ⟨newPosition,asked⟩ :: rest } := by
      intro newPosition same late
      refine invariant_move inv shape ?_ ?_
      · simp [shape,List.countP_cons,Handler.owes,same]
      · rintro other member
        rcases List.mem_cons.mp member with rfl | old
        · exact .inr late
        · exact .inl old
    have returns : (asked && position.unanswered) = false → Invariant { state with handlers := rest } := by
      intro nothing
      exact invariant_move inv shape (by simp [shape,List.countP_cons,Handler.owes,nothing]) fun _ old => .inl old
    cases position with
    | pollsModel =>
      simp only [State.proceed,shape] at stepped
      split at stepped
      · next polled =>
        cases stepped
        refine moves .answersPoll rfl fun _ => ?_
        cases asked with
        | true => rfl
        | false => exact absurd polled (finds rfl)
      · cases stepped
        exact moves .checksNativeWaiting rfl (by simp [Position.answers])
    | checksNativeWaiting =>
      have finds : asked = true ↔ state.currentState ≠ .nativeWaiting := finds
      simp only [State.proceed,shape] at stepped
      split at stepped
      · next native =>
        have poll : asked = false := by simpa [native] using finds
        have returned := returns (by simp [poll])
        split at stepped
        · cases stepped
          exact invariant_of_same returned rfl rfl rfl rfl rfl
        · cases stepped
          refine invariant_move inv shape (by simp [shape,List.countP_cons,Handler.owes,poll]) ?_
          rintro other member
          rcases List.mem_cons.mp member with rfl | old
          · exact .inr (by simp [Position.answers])
          · exact .inl old
      · next other =>
        cases stepped
        exact moves .checksManager rfl fun _ => finds.mpr other
    | checksManager =>
      have mine : asked = true := inv.asked ⟨.checksManager,asked⟩ (by simp [shape]) (.inl rfl)
      simp only [State.proceed,shape] at stepped
      split at stepped
      · next missing => exact absurd missing finds
      · cases stepped
        exact moves .answersRequest rfl fun _ => mine
    | answersPoll | answersRequest => simp [State.proceed,shape] at stepped
    | becomesNativeWaiting =>
      simp only [State.proceed,shape,Option.some.injEq] at stepped
      subst stepped
      exact invariant_of_same (returns (by simp [Position.unanswered])) rfl rfl rfl rfl rfl
    | suspended =>
      simp only [State.proceed,shape,Option.some.injEq] at stepped
      subst stepped
      exact returns (by simp [Position.unanswered])
    | leavesNativeWaiting =>
      simp only [State.proceed,shape,Option.some.injEq] at stepped
      subst stepped
      exact invariant_unlock (returns (by simp [Position.unanswered])) rfl finds

/-- An answer is owed where it is given, so it goes into an empty slot that somebody waits for. -/
theorem invariant_notify {intention : Intention} (inv : Invariant state)
    (stepped : state.notifySchedulerForIntention intention = some next) :
    Invariant next ∧ state.suspendFlag = none ∧ next.suspendFlag = some intention ∧ next.waiting = state.waiting := by
  have answered : ∀ handler rest, state.handlers = handler :: rest → handler.position.answers = true →
      ∀ after, after.countP Handler.owes = rest.countP Handler.owes →
      (∀ other ∈ after, other ∈ rest ∨ ¬ (other.position = .checksManager ∨ other.position.answers = true)) →
      ∀ newState, Invariant { state with currentState := newState,suspendFlag := some intention,handlers := after } ∧
        state.suspendFlag = none := by
    intro handler rest shape answers after count late newState
    have mine : handler.asked = true := inv.asked handler (by simp [shape]) (.inr answers)
    have owes : handler.owes = true := by
      cases position : handler.position <;> simp_all [Handler.owes,Position.answers,Position.unanswered]
    have owing := inv.owing
    rw [owed,shape,List.countP_cons_of_pos owes] at owing
    have waits : state.waiting ≠ [] ∧ state.suspendFlag = none := by
      by_contra not
      rw [if_neg not] at owing
      omega
    rw [if_pos waits] at owing
    refine ⟨⟨inv.alone,fun nobody => absurd nobody waits.1,?_,fun other member => ?_⟩,waits.2⟩
    · simp only [owed,count,reduceCtorEq,and_false,↓reduceIte]
      omega
    · rcases late other member with old | not
      · exact inv.asked other (by rw [shape]; exact List.mem_cons_of_mem _ old)
      · exact fun isLate => absurd isLate not
  unfold State.notifySchedulerForIntention at stepped
  split at stepped
  · next asked rest shape =>
    split at stepped
    · cases stepped
    · cases stepped
      obtain ⟨kept,empty⟩ := answered _ rest shape rfl rest rfl (fun _ => .inl) state.currentState
      exact ⟨kept,empty,rfl,rfl⟩
  · next asked rest shape =>
    have goesOn : ∀ position, position.unanswered = false → position.answers = false → position ≠ .checksManager →
        ∀ newState, Invariant { state with
          currentState := newState,suspendFlag := some intention,handlers := ⟨position,asked⟩ :: rest } ∧
        state.suspendFlag = none := by
      intro position done silent early
      refine answered _ rest shape rfl _ (by simp [List.countP_cons,Handler.owes,done]) fun other member => ?_
      rcases List.mem_cons.mp member with rfl | old
      · exact .inr (by simp [silent,early])
      · exact .inl old
    cases intention with
    | toBeDisregarded =>
      cases stepped
      obtain ⟨kept,empty⟩ := goesOn .becomesNativeWaiting rfl rfl (by decide) state.currentState
      exact ⟨kept,empty,rfl,rfl⟩
    | toBeSuspended =>
      cases stepped
      obtain ⟨kept,empty⟩ := goesOn .suspended rfl rfl (by decide) .suspended
      exact ⟨kept,empty,rfl,rfl⟩
    | toKeepOnRunning =>
      cases stepped
      obtain ⟨kept,empty⟩ := answered _ rest shape rfl rest rfl (fun _ => .inl) state.currentState
      exact ⟨kept,empty,rfl,rfl⟩
  · cases stepped

theorem invariant_read {managerId : Nat} (inv : Invariant state)
    (stepped : step state (.getSuspendingThreadIntention managerId) = some next) :
    Invariant next ∧ next.waiting = [] := by
  simp only [step,Option.ite_none_right_eq_some,Option.some.injEq] at stepped
  obtain ⟨⟨waits,answered⟩,rfl⟩ := stepped
  obtain ⟨other,alone,held⟩ := inv.alone.resolve_left (List.ne_nil_of_mem waits)
  obtain rfl : managerId = other := by simpa [alone] using waits
  have owing := inv.owing
  rw [if_neg fun both => answered both.2] at owing
  exact ⟨⟨.inl (by simp [alone]),fun _ => rfl,by simpa [owed,alone] using owing,inv.asked⟩,by simp [alone]⟩

/-- Every expected step keeps the invariant. -/
theorem step_invariant {event : Event} (inv : Invariant state) (expected : Expected state event)
    (stepped : step state event = some next) : Invariant next := by
  cases event with
  | suspendThread managerId => exact (invariant_ask inv stepped).1
  | suspendThreadTimesOut managerId =>
    cases stepped
    exact invariant_of_same inv rfl rfl rfl rfl rfl
  | pollThreadToCheckIfActuallyRunning managerId =>
    simp only [step,Option.ite_none_right_eq_some] at stepped
    exact (invariant_ask inv stepped.2).1
  | getSuspendingThreadIntention managerId => exact (invariant_read inv stepped).1
  | pollNativeWaitingThreads =>
    simp only [step,Option.ite_none_right_eq_some,Option.some.injEq] at stepped
    obtain ⟨-,rfl⟩ := stepped
    exact ⟨inv.alone,inv.clear,by simpa [owed] using inv.owing,inv.asked⟩
  | deliver =>
    simp only [step,Option.map_eq_some_iff] at stepped
    obtain ⟨asked,sent,rfl⟩ := stepped
    refine ⟨inv.alone,inv.clear,?_,fun other member => ?_⟩
    · have owing := inv.owing
      simp only [owed,sent,List.countP_cons,Handler.owes,Position.unanswered,Bool.and_true,Option.some.injEq] at owing ⊢
      rw [← owing]
      simp [Nat.add_comm]
    · rcases List.mem_cons.mp member with rfl | old
      · simp [Position.answers]
      · exact inv.asked other old
  | proceed blocked => exact invariant_proceed inv expected stepped
  | notifySchedulerForIntention intention => exact (invariant_notify inv stepped).1
  | lockShareResourceAccessKey holder =>
    simp only [step,Option.ite_none_right_eq_some,Option.some.injEq] at stepped
    obtain ⟨⟨-,free⟩,rfl⟩ := stepped
    refine ⟨.inl (inv.alone.resolve_right fun ⟨_,_,held⟩ => ?_),inv.clear,inv.owing,inv.asked⟩
    rw [free] at held
    cases held
  | unlockShareResourceAccessKey holder =>
    simp only [step,Option.ite_none_right_eq_some,Option.some.injEq] at stepped
    obtain ⟨acts,rfl⟩ := stepped
    exact invariant_unlock inv acts expected
  | suspendLooseCurrentThread | setRunningThread managerId =>
    cases stepped
    exact invariant_of_same inv rfl rfl rfl rfl rfl
  | setNewState newState =>
    simp only [step,Option.ite_none_left_eq_some,Option.some.injEq] at stepped
    obtain ⟨-,rfl⟩ := stepped
    exact invariant_of_same inv rfl rfl rfl rfl rfl

/-! ## Runs -/

/-- A scheduler signals the thread and waits for its intention. -/
def Asks (managerId : Nat) (event : Event) : Prop :=
  event = .suspendThread managerId ∨ event = .pollThreadToCheckIfActuallyRunning managerId

def Event.reads : Event → Bool
  | .getSuspendingThreadIntention _ => true
  | _ => false

def Event.posts : Event → Bool
  | .notifySchedulerForIntention _ => true
  | _ => false

private theorem reached_invariant {events : List Event} (executed : Runs.run step initial events = some state)
    (expected : Runs.Meets step Expected initial events) : Invariant state :=
  Runs.invariant_of_meets (fun _ _ _ inv holds stepped => step_invariant inv holds stepped) invariant_initial expected
    executed

private theorem asks_starts {managerId : Nat} {event : Event} (inv : Invariant state) (asks : Asks managerId event)
    (stepped : step state event = some next) : next.waiting = [managerId] ∧ next.suspendFlag = none := by
  rcases asks with rfl | rfl
  · exact (invariant_ask inv stepped).2.2
  · simp only [step,Option.ite_none_right_eq_some] at stepped
    exact (invariant_ask inv stepped.2).2.2

/-- Until it reads, the scheduler stays the only one that waits, and an answer fills the slot. -/
private theorem step_waits {managerId : Nat} {event : Event} (inv : Invariant state) (expected : Expected state event)
    (stepped : step state event = some next) (waits : state.waiting = [managerId]) (unread : event.reads = false) :
    next.waiting = [managerId] ∧ next.suspendFlag.toList.length =
      state.suspendFlag.toList.length + if event.posts = true then 1 else 0 := by
  have locked : ∀ other, state.ask other ≠ some next := by
    intro other asks
    have := (invariant_ask inv asks).2.1
    rw [waits] at this
    cases this
  cases event with
  | suspendThread other => exact absurd stepped (locked other)
  | pollThreadToCheckIfActuallyRunning other =>
    simp only [step,Option.ite_none_right_eq_some] at stepped
    exact absurd stepped.2 (locked other)
  | getSuspendingThreadIntention other => cases unread
  | notifySchedulerForIntention intention =>
    obtain ⟨-,empty,filled,same⟩ := invariant_notify inv stepped
    simp [same,waits,empty,filled,Event.posts]
  | proceed blocked =>
    have same : next.waiting = state.waiting ∧ next.suspendFlag = state.suspendFlag := by
      simp only [step,State.proceed] at stepped
      split at stepped
      · cases stepped
      · split at stepped <;> (cases stepped; exact ⟨rfl,rfl⟩)
      · split at stepped
        · split at stepped <;> (cases stepped; exact ⟨rfl,rfl⟩)
        · cases stepped
          exact ⟨rfl,rfl⟩
      · split at stepped <;> (cases stepped; exact ⟨rfl,rfl⟩)
      all_goals first
        | cases stepped; exact ⟨rfl,rfl⟩
        | cases stepped
    simp [same.1,same.2,waits,Event.posts]
  | suspendThreadTimesOut other | suspendLooseCurrentThread | setRunningThread other =>
    cases stepped
    exact ⟨waits,rfl⟩
  | deliver =>
    simp only [step,Option.map_eq_some_iff] at stepped
    obtain ⟨asked,-,rfl⟩ := stepped
    exact ⟨waits,rfl⟩
  | pollNativeWaitingThreads | lockShareResourceAccessKey holder | unlockShareResourceAccessKey holder =>
    simp only [step,Option.ite_none_right_eq_some,Option.some.injEq] at stepped
    obtain ⟨-,rfl⟩ := stepped
    exact ⟨waits,rfl⟩
  | setNewState newState =>
    simp only [step,Option.ite_none_left_eq_some,Option.some.injEq] at stepped
    obtain ⟨-,rfl⟩ := stepped
    exact ⟨waits,rfl⟩

private theorem run_waits {managerId : Nat} {events : List Event} {last : State} (inv : Invariant state)
    (expected : Runs.Meets step Expected state events) (executed : Runs.run step state events = some last)
    (waits : state.waiting = [managerId]) (unread : ∀ event ∈ events, event.reads = false) :
    last.waiting = [managerId] ∧
      last.suspendFlag.toList.length = state.suspendFlag.toList.length + events.countP Event.posts := by
  induction events generalizing state with
  | nil =>
    cases executed
    exact ⟨waits,rfl⟩
  | cons event rest ih =>
    obtain ⟨next,stepped,remaining⟩ := (Runs.run_cons state event rest last).mp executed
    obtain ⟨still,filled⟩ := step_waits inv expected.1 stepped waits (unread event (by simp))
    obtain ⟨atEnd,total⟩ := ih (step_invariant inv expected.1 stepped) (expected.2 next stepped) remaining still
      fun later member => unread later (List.mem_cons_of_mem _ member)
    refine ⟨atEnd,?_⟩
    rw [total,filled,List.countP_cons]
    omega

/-- In runs whose signals find the thread in the states they are meant for: no intention is left where
    nobody waits; no answer overwrites another one; and from a request to the read that ends it, its
    scheduler is the only one that waits, the slot is filled by exactly one answer, and before that
    a signal of the request or a handler that runs for it is on its way. -/
theorem request_is_answered_once (events : List Event) (state : State) (executed : Runs.run step initial events = some state)
    (expected : Runs.Meets step Expected initial events) :
    (state.waiting = [] → state.suspendFlag = none) ∧
    (∀ intention next, step state (.notifySchedulerForIntention intention) = some next → state.suspendFlag = none) ∧
    ∀ before after managerId request, events = before ++ request :: after → Asks managerId request →
      (∀ event ∈ after, event.reads = false) → state.waiting = [managerId] ∧
      after.countP Event.posts = state.suspendFlag.toList.length ∧
      (state.suspendFlag = none → state.signal = some true ∨ ∃ handler ∈ state.handlers, handler.owes = true) := by
  have inv := reached_invariant executed expected
  refine ⟨inv.clear,fun intention next stepped => (invariant_notify inv stepped).2.1,?_⟩
  rintro before after managerId request rfl asks unread
  obtain ⟨middle,first,later⟩ := (Runs.run_append initial before (request :: after) state).mp executed
  obtain ⟨asked,stepped,remaining⟩ := (Runs.run_cons middle request after state).mp later
  have invMiddle : Invariant middle := Runs.invariant_of_meets
    (fun _ _ _ inv holds stepped => step_invariant inv holds stepped) invariant_initial
    (Runs.meets_of_earlier expected) first
  have expectedLater := Runs.meets_of_append expected first
  obtain ⟨waits,empty⟩ := asks_starts invMiddle asks stepped
  obtain ⟨atEnd,total⟩ := run_waits (step_invariant invMiddle expectedLater.1 stepped) (expectedLater.2 asked stepped)
    remaining waits unread
  refine ⟨atEnd,by simpa [empty] using total.symm,fun missing => ?_⟩
  have owing := inv.owing
  rw [if_pos ⟨by simp [atEnd],missing⟩,owed] at owing
  by_cases sent : state.signal = some true
  · exact .inl sent
  · rw [if_neg sent] at owing
    obtain ⟨handler,member,owes⟩ := List.countP_pos_iff.mp (show 0 < state.handlers.countP Handler.owes by omega)
    exact .inr ⟨handler,member,owes⟩

/-- Scheduler 0 suspends the thread, which is blocked outside: it answers that it is to be disregarded,
    and goes into native waiting. -/
private def goesNativeWaiting : List Event :=
  [.setRunningThread 0,.suspendThread 0,.deliver,.proceed true,.proceed true,.proceed true,
    .notifySchedulerForIntention .toBeDisregarded,.getSuspendingThreadIntention 0,
    .unlockShareResourceAccessKey (.scheduler 0),.proceed true]

/-- A poll that finds the thread still native waiting, before it returns. -/
private def pollAndReturn : List Event :=
  goesNativeWaiting ++ [.pollNativeWaitingThreads,.deliver,.proceed true,.proceed true,.suspendLooseCurrentThread,
    .setRunningThread 1]

/-- The poll is not answered; scheduler 1 then waits for an answer that the handler owes it. -/
theorem request_after_poll : ∃ state,
    Runs.run step initial (pollAndReturn ++ .suspendThread 1 :: [.deliver,.proceed true]) = some state ∧
    state.waiting = [1] ∧ ∃ handler ∈ state.handlers, handler.owes = true := by
  have checked : (Runs.run step initial (pollAndReturn ++ .suspendThread 1 :: [.deliver,.proceed true])).any
      (fun state => decide (state.suspendFlag = none ∧ state.signal ≠ some true)) = true := by decide
  have expected : Runs.Meets step Expected initial (pollAndReturn ++ .suspendThread 1 :: [.deliver,.proceed true]) := by
    decide
  obtain ⟨state,executed,missing⟩ := Runs.exists_of_checked checked
  have missing : state.suspendFlag = none ∧ state.signal ≠ some true := of_decide_eq_true missing
  obtain ⟨waits,-,coming⟩ := (request_is_answered_once _ state executed expected).2.2 pollAndReturn
    [.deliver,.proceed true] 1 (.suspendThread 1) rfl (.inl rfl) (by decide)
  exact ⟨state,executed,waits,(coming missing.1).resolve_left missing.2⟩

/-- A poll that is delivered only after the thread has left native waiting is answered like a request:
    the intention is left for the next one. -/
theorem late_poll_leaves_intention : ¬ ∀ events state, Runs.run step initial events = some state →
    state.waiting = [] → state.suspendFlag = none := by
  intro claimed
  have left := claimed (goesNativeWaiting ++ [.pollNativeWaitingThreads,.lockShareResourceAccessKey .thread,
    .suspendLooseCurrentThread,.setRunningThread 0,.unlockShareResourceAccessKey .thread,.deliver,.proceed true,
    .proceed true,.proceed true,.notifySchedulerForIntention .toKeepOnRunning]) _ rfl rfl
  cases left

end Vexjine.IntentionHandshake
