import Vexjine.ControllerWait

/-!
# The end of a scheduler

The main loop of a manager's scheduler with `doControllerWait` in it, any number
of threads that call `end`, and those that wake the scheduler up. All of them
share one condition variable. A step is one critical section on the scheduler's
mutex or one access to a shared variable outside it. The arithmetic of the
scaling factors, which is in floating point, is a parameter.
-/

namespace Vexjine.Shutdown
set_option linter.unusedSimpArgs false
set_option linter.unusedSectionVars false
open Vexjine.ControllerWait (noThreadsToSchedule)

/-- Where the scheduler's thread is. -/
inductive Position
  | notStarted
  | looping     -- about to evaluate `running`
  | calling     -- about to call `doControllerWait`
  | entering    -- at the head of the outer loop
  | preparing   -- at the head of the inner loop
  | prepared    -- the remaining time is computed
  | waiting     -- inside `pthread_cond_timedwait`
  | awakened    -- out of the wait set, not yet in possession of the mutex
  | waited      -- about to evaluate `timeWaitingFactorChanged`
  | finishing   -- about to evaluate `noThreadsToSchedule`
  | scanning    -- polls, suspends the running thread and resumes the top of the queue
  | leaving     -- out of the main loop
  | exited      -- has told so
  deriving DecidableEq

/-- A thread that waits at the condition variable. -/
inductive Waiter (Terminator : Type)
  | scheduler
  | terminator (t : Terminator)
  deriving DecidableEq

/-- The scheduler with the local variables of `doControllerWait`, and the threads that have called `end`: the
    waiting ones and those on their way back. No step reads the last two fields: `end` has been called, and this
    is not the first pass of a call. -/
structure State (Terminator Factor : Type) where
  position : Position
  running : Bool
  schedulerWaitingForTimeslotExpiry : Bool
  timeWaitingFactorChanged : Bool
  forceMinimumTimeslotSelection : Bool
  decreaseSchedulerSleepingTimeBy : Int
  totalRemainingWaitingTime : Int
  nsecAlreadyWaited : Int
  alreadyWaited : Bool
  timeWaitingFactor : Factor
  previousTimeWaitingFactor : Factor
  waiting : List Terminator
  awakened : List Terminator
  ended : Bool
  repeating : Bool

/-- Before `start`; the flags that the constructor does not set are as it finds them. -/
def initial (Terminator : Type) {Factor : Type} (one : Factor) (running timeWaitingFactorChanged : Bool) :
    State Terminator Factor where
  position := .notStarted
  running := running
  schedulerWaitingForTimeslotExpiry := false
  timeWaitingFactorChanged := timeWaitingFactorChanged
  forceMinimumTimeslotSelection := false
  decreaseSchedulerSleepingTimeBy := 0
  totalRemainingWaitingTime := 0
  nsecAlreadyWaited := 0
  alreadyWaited := false
  timeWaitingFactor := one
  previousTimeWaitingFactor := one
  waiting := []
  awakened := []
  ended := false
  repeating := false

/-- The steps of the scheduler first. What it reads from the clock, the running thread and the queue comes from
    outside, as the choice of the thread that a signal awakens. -/
inductive Event (Terminator Factor : Type)
  | start
  | checkRunning
  | doControllerWait
  | beginTimeslot (schedulerTimeslot : Int)
  | prepare (nsecWaited : Int) (timeWaitingFactor : Factor)
  | tryWait
  | acknowledge
  | checkFactor
  | checkThreads (runnableThreadsEmpty runningThreadNull : Bool) (freeze : Int)
  | finishScan
  | notifyTerminator (signalled : Option (Waiter Terminator))
  | expire
  | endCalled (t : Terminator) (signalled : Option (Waiter Terminator))
  | spuriousWakeup (t : Terminator)
  | endReturns (t : Terminator)
  | unconditionalWakeup (signalled : Option (Waiter Terminator))
  | setTimeWaitingFactorChanged
  | setForceMinimumTimeslotSelection
  | setDecreaseSchedulerSleepingTimeBy (decreaseSchedulerSleepingTimeBy : Int)
  deriving DecidableEq

variable {Terminator Factor : Type} [DecidableEq Terminator]

namespace State
variable (state : State Terminator Factor)

/-- `pthread_cond_signal`: one of the waiting threads awakens, if there is any. -/
def signal : Option (Waiter Terminator) → Option (State Terminator Factor)
  | none => if state.position ≠ .waiting ∧ state.waiting = [] then some state else none
  | some .scheduler => if state.position = .waiting then some { state with position := .awakened } else none
  | some (.terminator t) =>
    if t ∈ state.waiting then some { state with waiting := state.waiting.erase t,awakened := t :: state.awakened } else none

def unconditionalWakeup (signalled : Option (Waiter Terminator)) : Option (State Terminator Factor) :=
  if state.schedulerWaitingForTimeslotExpiry then state.signal signalled
  else some { state with schedulerWaitingForTimeslotExpiry := true }

/-- `end` up to its wait. -/
def endCalled (t : Terminator) (signalled : Option (Waiter Terminator)) : Option (State Terminator Factor) :=
  (({ state with running := false,ended := true } : State Terminator Factor).signal signalled).map fun signalled =>
    { signalled with waiting := t :: signalled.waiting }

/-- The inner loop before the wait; where it is repeated, the clock tells the time since the last wait. -/
def prepare (rescale : Int → Factor → Factor → Int) (nsecWaited : Int) (timeWaitingFactor : Factor) :
    State Terminator Factor :=
  let nsecAlreadyWaited :=
    (if state.alreadyWaited then nsecWaited else state.nsecAlreadyWaited) + state.decreaseSchedulerSleepingTimeBy
  let previousTimeWaitingFactor :=
    if state.alreadyWaited then state.timeWaitingFactor else state.previousTimeWaitingFactor
  { state with
    position := .prepared
    nsecAlreadyWaited
    previousTimeWaitingFactor
    timeWaitingFactor
    decreaseSchedulerSleepingTimeBy := 0
    alreadyWaited := true
    timeWaitingFactorChanged := false
    totalRemainingWaitingTime := if state.forceMinimumTimeslotSelection then 1000000
      else rescale (state.totalRemainingWaitingTime - nsecAlreadyWaited) previousTimeWaitingFactor timeWaitingFactor }

/-- The locked section of the inner loop up to the wait; it may return from `doControllerWait`. -/
def timedWait : State Terminator Factor :=
  if state.running && !state.schedulerWaitingForTimeslotExpiry then
    { state with schedulerWaitingForTimeslotExpiry := true,position := .waiting }
  else { state with schedulerWaitingForTimeslotExpiry := false,position := .scanning }

end State

/-- One step; `none` where the thread is not at it, an assertion fails or no such thread can be signalled. -/
def step (rescale : Int → Factor → Factor → Int) (one : Factor) (state : State Terminator Factor) :
    Event Terminator Factor → Option (State Terminator Factor)
  | .start => if state.position = .notStarted then some { state with running := true,position := .looping } else none
  | .checkRunning =>
    if state.position = .looping then
      some { state with position := if state.running then .calling else .leaving }
    else none
  | .doControllerWait =>
    if state.position = .calling then
      some { state with nsecAlreadyWaited := 0,previousTimeWaitingFactor := one,position := .entering,repeating := false }
    else none
  | .beginTimeslot schedulerTimeslot =>
    if state.position = .entering ∧ 0 < schedulerTimeslot then
      some { state with
        totalRemainingWaitingTime := schedulerTimeslot
        alreadyWaited := false
        forceMinimumTimeslotSelection := false
        position := .preparing }
    else none
  | .prepare nsecWaited timeWaitingFactor =>
    if state.position = .preparing then some (state.prepare rescale nsecWaited timeWaitingFactor) else none
  | .tryWait =>
    if state.position = .prepared then
      if 0 < state.totalRemainingWaitingTime then some state.timedWait else some { state with position := .waited }
    else none
  | .acknowledge =>
    if state.position = .awakened then
      some { state with schedulerWaitingForTimeslotExpiry := false,position := .waited }
    else none
  | .checkFactor =>
    if state.position = .waited then
      some (if state.timeWaitingFactorChanged then { state with position := .preparing,repeating := true }
        else { state with position := .finishing })
    else none
  | .checkThreads runnableThreadsEmpty runningThreadNull freeze =>
    if state.position = .finishing then
      some (if noThreadsToSchedule runnableThreadsEmpty runningThreadNull freeze then
          { state with position := .entering,repeating := true }
        else { state with position := .scanning })
    else none
  | .finishScan => if state.position = .scanning then some { state with position := .looping } else none
  | .notifyTerminator signalled =>
    if state.position = .leaving then ({ state with position := .exited } : State Terminator Factor).signal signalled
    else none
  | .expire => if state.position = .waiting then some { state with position := .awakened } else none
  | .endCalled t signalled =>
    if t ∉ state.waiting ∧ t ∉ state.awakened then state.endCalled t signalled else none
  | .spuriousWakeup t =>
    if t ∈ state.waiting then some { state with waiting := state.waiting.erase t,awakened := t :: state.awakened }
    else none
  | .endReturns t => if t ∈ state.awakened then some { state with awakened := state.awakened.erase t } else none
  | .unconditionalWakeup signalled => state.unconditionalWakeup signalled
  | .setTimeWaitingFactorChanged => some { state with timeWaitingFactorChanged := true }
  | .setForceMinimumTimeslotSelection => some { state with forceMinimumTimeslotSelection := true }
  | .setDecreaseSchedulerSleepingTimeBy decreaseSchedulerSleepingTimeBy =>
    some { state with decreaseSchedulerSleepingTimeBy }

/-- A step of the scheduler itself. -/
def Event.ofScheduler : Event Terminator Factor → Bool
  | .start | .checkRunning | .doControllerWait | .beginTimeslot _ | .prepare _ _ | .tryWait | .acknowledge | .checkFactor
  | .checkThreads _ _ _ | .finishScan | .notifyTerminator _ => true
  | _ => false

/-! ## The law -/

/-- The scheduler has left its main loop. -/
def Position.hasLeft : Position → Bool
  | .leaving | .exited => true
  | _ => false

/-- A thread comes back from `end`. -/
def Event.returns : Event Terminator Factor → Bool
  | .endReturns _ => true
  | _ => false

/-- `end` returns only after the scheduler has left its loop; the scheduler starts no timed wait once `end` has
    been called, and does not leave a thread in `end` behind when it has told that it exits. -/
structure Lawful (state : State Terminator Factor) (event : Event Terminator Factor) (next : State Terminator Factor) :
    Prop where
  returns : event.returns = true → state.position.hasLeft = true
  sleepless : state.ended = true → state.position ≠ .waiting → next.position ≠ .waiting
  told : next.position = .exited → next.waiting = []

instance (state next : State Terminator Factor) (event : Event Terminator Factor) : Decidable (Lawful state event next) :=
  decidable_of_iff (_ ∧ _ ∧ _) ⟨fun parts => ⟨parts.1,parts.2.1,parts.2.2⟩,
    fun lawful => ⟨lawful.returns,lawful.sleepless,lawful.told⟩⟩

/-! ## When it holds -/

def Event.callsEnd : Event Terminator Factor → Bool
  | .endCalled _ _ => true
  | _ => false

def Event.notifies : Event Terminator Factor → Bool
  | .unconditionalWakeup _ => true
  | _ => false

def Event.spurious : Event Terminator Factor → Bool
  | .spuriousWakeup _ => true
  | _ => false

/-- What a pass of the inner loop reads. -/
def Event.pass : Event Terminator Factor → Option (Int × Factor)
  | .prepare nsecWaited timeWaitingFactor => some (nsecWaited,timeWaitingFactor)
  | _ => none

/-- What is left of the timeslot for a pass of the inner loop. -/
def leavesTime (rescale : Int → Factor → Factor → Int) (state : State Terminator Factor) (nsecWaited : Int)
    (timeWaitingFactor : Factor) : Bool :=
  state.forceMinimumTimeslotSelection || decide (0 < rescale
    (state.totalRemainingWaitingTime - ((if state.alreadyWaited then nsecWaited else state.nsecAlreadyWaited) +
      state.decreaseSchedulerSleepingTimeBy))
    (if state.alreadyWaited then state.timeWaitingFactor else state.previousTimeWaitingFactor) timeWaitingFactor)

/-- While a thread waits in `end` and the scheduler is in its loop, no other one calls `end`, no notification
    finds the scheduler's flag set and no wake-up is spurious; `end` is called between the start and the exit; and
    once it has been called, the time waited so far leaves some of the timeslot to a pass that is repeated. -/
structure Orderly (rescale : Int → Factor → Factor → Int) (state : State Terminator Factor)
    (event : Event Terminator Factor) : Prop where
  once : event.callsEnd = true → state.position ≠ .notStarted ∧ state.position ≠ .exited ∧
    (state.waiting = [] ∨ state.position = .leaving)
  quiet : event.notifies = true → state.schedulerWaitingForTimeslotExpiry = true →
    state.waiting = [] ∨ state.position.hasLeft = true
  patient : event.spurious = true → state.position.hasLeft = true
  timely : ∀ read ∈ event.pass, state.ended = true → state.repeating = true →
    leavesTime rescale state read.1 read.2 = true

instance (rescale : Int → Factor → Factor → Int) (state : State Terminator Factor) (event : Event Terminator Factor) :
    Decidable (Orderly rescale state event) :=
  have : Decidable (∀ read ∈ event.pass, state.ended = true → state.repeating = true →
    leavesTime rescale state read.1 read.2 = true) := Option.decidableForallMem _
  decidable_of_iff (_ ∧ _ ∧ _ ∧ _) ⟨fun parts => ⟨parts.1,parts.2.1,parts.2.2.1,parts.2.2.2⟩,
    fun orderly => ⟨orderly.once,orderly.quiet,orderly.patient,orderly.timely⟩⟩

variable {rescale : Int → Factor → Factor → Int} {one : Factor} {state next last : State Terminator Factor}
  {event : Event Terminator Factor}

/-! ## The invariant -/

/-- Once `end` has been called the scheduler is awake and does not run on; one thread at most waits in `end`, and
    none comes back before the scheduler has left. -/
private structure Closing (state : State Terminator Factor) : Prop where
  open_ : state.ended = false → state.waiting = [] ∧ state.awakened = []
  stopped : state.ended = true → state.running = false
  started : state.ended = true → state.position ≠ .notStarted
  awake : state.ended = true → state.position ≠ .waiting
  single : state.waiting.length ≤ 1
  kept : state.position = .exited → state.waiting = []
  left : state.awakened ≠ [] → state.position.hasLeft = true

private theorem closing_initial (running changed : Bool) : Closing (initial Terminator one running changed) := by
  constructor <;> simp [initial]

/-- What a signal awakens. -/
private theorem signal_cases {signalled : Option (Waiter Terminator)} (sent : state.signal signalled = some next) :
    (state.position ≠ .waiting ∧ state.waiting = [] ∧ next = state) ∨
    (state.position = .waiting ∧ next = { state with position := .awakened }) ∨
    ∃ t ∈ state.waiting,
      next = { state with waiting := state.waiting.erase t,awakened := t :: state.awakened } := by
  cases signalled with
  | none =>
    simp only [State.signal,Option.ite_none_right_eq_some,Option.some.injEq] at sent
    exact .inl ⟨sent.1.1,sent.1.2,sent.2.symm⟩
  | some waiter =>
    cases waiter with
    | scheduler =>
      simp only [State.signal,Option.ite_none_right_eq_some,Option.some.injEq] at sent
      exact .inr (.inl ⟨sent.1,sent.2.symm⟩)
    | terminator t =>
      simp only [State.signal,Option.ite_none_right_eq_some,Option.some.injEq] at sent
      exact .inr (.inr ⟨t,sent.1,sent.2.symm⟩)

/-- Only one thread waits in `end`: its wake-up leaves none. -/
private theorem erase_only {waiting : List Terminator} {t : Terminator} (single : waiting.length ≤ 1)
    (member : t ∈ waiting) : waiting.erase t = [] := by
  rw [← List.length_eq_zero_iff,List.length_erase_of_mem member]
  omega

/-- A thread in `end` awakens, and the scheduler has left its loop. -/
private theorem closing_awakened {t : Terminator} (closing : Closing state) (member : t ∈ state.waiting)
    (left : state.position.hasLeft = true) :
    Closing { state with waiting := state.waiting.erase t,awakened := t :: state.awakened } := by
  have none_ : state.waiting.erase t = [] := erase_only closing.single member
  refine ⟨fun open_ => ?_,closing.stopped,closing.started,closing.awake,by simp [none_],fun _ => none_,fun _ => left⟩
  have empty : state.waiting = [] := (closing.open_ open_).1
  simp [empty] at member

private theorem endCalled_closing {t : Terminator} {signalled : Option (Waiter Terminator)} (closing : Closing state)
    (once : state.position ≠ .notStarted ∧ state.position ≠ .exited ∧ (state.waiting = [] ∨ state.position = .leaving))
    (called : state.endCalled t signalled = some next) : Closing next := by
  obtain ⟨started,running,alone⟩ := once
  obtain ⟨open_,stopped,-,awake,single,kept,left⟩ := closing
  obtain ⟨signalled,sent,rfl⟩ := Option.map_eq_some_iff.mp called
  rcases signal_cases sent with ⟨awake,empty,rfl⟩ | ⟨atWait,rfl⟩ | ⟨other,member,rfl⟩
  · have empty : state.waiting = [] := empty
    exact ⟨nofun,fun _ => rfl,fun _ => started,fun _ => awake,by simp [empty],fun exits => absurd exits running,left⟩
  · -- no thread waited in `end` before, as the scheduler has waited
    have atWait : state.position = .waiting := atWait
    have empty : state.waiting = [] := by
      rcases alone with empty | leaving
      · exact empty
      · rw [atWait] at leaving
        cases leaving
    have none_ : state.awakened = [] := by
      by_contra some_
      have gone := left some_
      rw [atWait] at gone
      cases gone
    exact ⟨nofun,fun _ => rfl,fun _ => by simp,fun _ => by simp,by simp [empty],nofun,fun some_ => absurd none_ some_⟩
  · have member : other ∈ state.waiting := member
    have leaving : state.position = .leaving := by
      rcases alone with empty | leaving
      · simp [empty] at member
      · exact leaving
    have none_ : state.waiting.erase other = [] := erase_only single member
    exact ⟨nofun,fun _ => rfl,fun _ => started,fun _ => by simp [leaving],by simp [none_],
      fun exits => absurd exits running,fun _ => by simp [leaving,Position.hasLeft]⟩

private theorem wakeup_closing {signalled : Option (Waiter Terminator)} (closing : Closing state)
    (quiet : state.schedulerWaitingForTimeslotExpiry = true → state.waiting = [] ∨ state.position.hasLeft = true)
    (woken : state.unconditionalWakeup signalled = some next) : Closing next := by
  unfold State.unconditionalWakeup at woken
  split at woken
  · next flagged =>
    rcases signal_cases woken with ⟨-,-,rfl⟩ | ⟨atWait,rfl⟩ | ⟨t,member,rfl⟩
    · exact closing
    · obtain ⟨open_,stopped,started,awake,single,kept,left⟩ := closing
      refine ⟨open_,stopped,by simp,by simp,single,nofun,fun some_ => ?_⟩
      have gone := left some_
      rw [atWait] at gone
      cases gone
    · refine closing_awakened closing member ?_
      rcases quiet flagged with empty | gone
      · simp [empty] at member
      · exact gone
  · cases woken
    exact ⟨closing.open_,closing.stopped,closing.started,closing.awake,closing.single,closing.kept,closing.left⟩

/-- The scheduler moves on in its loop. -/
private theorem closing_moves (closing : Closing state) (position : Position) (from_ : state.position.hasLeft = false)
    (started : position ≠ .notStarted) (awake : state.ended = true → position ≠ .waiting) (stays : position ≠ .exited)
    (same : next.position = position ∧ next.running = state.running ∧ next.ended = state.ended ∧
      next.waiting = state.waiting ∧ next.awakened = state.awakened) : Closing next := by
  obtain ⟨here,running,ended,waiting,awakened⟩ := same
  have none_ : state.awakened = [] := by
    by_contra some_
    rw [closing.left some_] at from_
    cases from_
  refine ⟨?_,?_,?_,?_,?_,?_,?_⟩
  · rw [ended,waiting,awakened]
    exact closing.open_
  · rw [ended,running]
    exact closing.stopped
  · rw [here]
    exact fun _ => started
  · rw [ended,here]
    exact awake
  · rw [waiting]
    exact closing.single
  · rw [here]
    exact fun exits => absurd exits stays
  · rw [awakened]
    exact fun some_ => absurd none_ some_

private theorem notifyTerminator_closing {signalled : Option (Waiter Terminator)} (closing : Closing state)
    (sent : ({ state with position := .exited } : State Terminator Factor).signal signalled = some next) : Closing next := by
  obtain ⟨open_,stopped,-,-,single,-,left⟩ := closing
  rcases signal_cases sent with ⟨awake,empty,rfl⟩ | ⟨atWait,-⟩ | ⟨t,member,rfl⟩
  · exact ⟨open_,stopped,by simp,by simp,single,fun _ => empty,fun _ => rfl⟩
  · cases atWait
  · have member : t ∈ state.waiting := member
    have none_ : state.waiting.erase t = [] := erase_only single member
    refine ⟨fun open' => ?_,stopped,by simp,by simp,by simp [none_],fun _ => none_,fun _ => rfl⟩
    have empty : state.waiting = [] := (open_ open').1
    simp [empty] at member

private theorem step_closing (closing : Closing state) (orderly : Orderly rescale state event)
    (stepped : step rescale one state event = some next) : Closing next := by
  cases event <;> simp only [step,Option.ite_none_right_eq_some,Option.some.injEq] at stepped
  case endCalled t signalled => exact endCalled_closing closing (orderly.once rfl) stepped.2
  case unconditionalWakeup signalled => exact wakeup_closing closing (orderly.quiet rfl) stepped
  case notifyTerminator signalled => exact notifyTerminator_closing closing stepped.2
  case setTimeWaitingFactorChanged | setForceMinimumTimeslotSelection | setDecreaseSchedulerSleepingTimeBy =>
    obtain rfl := stepped
    exact ⟨closing.open_,closing.stopped,closing.started,closing.awake,closing.single,closing.kept,closing.left⟩
  case tryWait =>
    obtain ⟨here,stepped⟩ := stepped
    split at stepped
    · cases stepped
      cases waits : state.running && !state.schedulerWaitingForTimeslotExpiry with
      | true =>
        -- `end` has not been called, as it would have stopped the scheduler
        refine closing_moves closing .waiting (by rw [here]; rfl) (by simp) (fun ended => ?_) (by simp) ?_
        · simp [closing.stopped ended] at waits
        · simp [State.timedWait,waits]
      | false =>
        refine closing_moves closing .scanning (by rw [here]; rfl) (by simp) (by simp) (by simp) ?_
        simp [State.timedWait,waits]
    · cases stepped
      exact closing_moves closing .waited (by rw [here]; rfl) (by simp) (by simp) (by simp) (by simp)
  all_goals obtain ⟨here,rfl⟩ := stepped
  case start =>
    have open_ : state.ended = false := by
      by_contra ended
      exact closing.started (by simpa using ended) here
    obtain ⟨none_,back⟩ := closing.open_ open_
    exact ⟨fun _ => ⟨none_,back⟩,by simp [open_],by simp,by simp,closing.single,nofun,by simp [back]⟩
  case spuriousWakeup t => exact closing_awakened closing here (orderly.patient rfl)
  case endReturns t =>
    have left := closing.left (List.ne_nil_of_mem here)
    refine ⟨fun open_ => ?_,closing.stopped,closing.started,closing.awake,closing.single,closing.kept,fun _ => left⟩
    have none_ := (closing.open_ open_).2
    simp [none_] at here
  case expire =>
    exact closing_moves closing .awakened (by rw [here]; rfl) (by simp) (by simp) (by simp) (by simp)
  case checkRunning =>
    cases runs : state.running with
    | true => exact closing_moves closing .calling (by rw [here]; rfl) (by simp) (by simp) (by simp) (by simp [runs])
    | false => exact closing_moves closing .leaving (by rw [here]; rfl) (by simp) (by simp) (by simp) (by simp [runs])
  case doControllerWait =>
    exact closing_moves closing .entering (by rw [here]; rfl) (by simp) (by simp) (by simp) (by simp)
  case beginTimeslot schedulerTimeslot =>
    exact closing_moves closing .preparing (by rw [here.1]; rfl) (by simp) (by simp) (by simp) (by simp)
  case prepare nsecWaited timeWaitingFactor =>
    exact closing_moves closing .prepared (by rw [here]; rfl) (by simp) (by simp) (by simp) (by simp [State.prepare])
  case acknowledge =>
    exact closing_moves closing .waited (by rw [here]; rfl) (by simp) (by simp) (by simp) (by simp)
  case checkFactor =>
    split
    · exact closing_moves closing .preparing (by rw [here]; rfl) (by simp) (by simp) (by simp) (by simp)
    · exact closing_moves closing .finishing (by rw [here]; rfl) (by simp) (by simp) (by simp) (by simp)
  case checkThreads runnableThreadsEmpty runningThreadNull freeze =>
    split
    · exact closing_moves closing .entering (by rw [here]; rfl) (by simp) (by simp) (by simp) (by simp)
    · exact closing_moves closing .scanning (by rw [here]; rfl) (by simp) (by simp) (by simp) (by simp)
  case finishScan =>
    exact closing_moves closing .looping (by rw [here]; rfl) (by simp) (by simp) (by simp) (by simp)

private theorem signal_ended {signalled : Option (Waiter Terminator)} (sent : state.signal signalled = some next) :
    next.ended = state.ended := by
  rcases signal_cases sent with ⟨-,-,rfl⟩ | ⟨-,rfl⟩ | ⟨t,-,rfl⟩ <;> rfl

private theorem step_ended (ended : state.ended = true) (stepped : step rescale one state event = some next) :
    next.ended = true := by
  cases event <;> simp only [step,Option.ite_none_right_eq_some,Option.some.injEq] at stepped
  case endCalled t signalled =>
    obtain ⟨called,sent,rfl⟩ := Option.map_eq_some_iff.mp stepped.2
    exact signal_ended sent
  case notifyTerminator signalled => exact (signal_ended stepped.2).trans ended
  case unconditionalWakeup signalled =>
    unfold State.unconditionalWakeup at stepped
    split at stepped
    · exact (signal_ended stepped).trans ended
    · cases stepped
      exact ended
  case tryWait =>
    obtain ⟨-,stepped⟩ := stepped
    split at stepped
    · cases stepped
      unfold State.timedWait
      split <;> exact ended
    · cases stepped
      exact ended
  case checkFactor =>
    obtain ⟨-,rfl⟩ := stepped
    split <;> exact ended
  case checkThreads runnableThreadsEmpty runningThreadNull freeze =>
    obtain ⟨-,rfl⟩ := stepped
    split <;> exact ended
  case setTimeWaitingFactorChanged | setForceMinimumTimeslotSelection | setDecreaseSchedulerSleepingTimeBy =>
    obtain rfl := stepped
    exact ended
  all_goals
    obtain ⟨-,rfl⟩ := stepped
    exact ended

private theorem lawful_of_orderly (closing : Closing state) (orderly : Orderly rescale state event)
    (stepped : step rescale one state event = some next) : Lawful state event next := by
  have kept := step_closing closing orderly stepped
  refine ⟨fun returns => ?_,fun ended _ => kept.awake (step_ended ended stepped),kept.kept⟩
  cases event with
  | endReturns t =>
    simp only [step,Option.ite_none_right_eq_some] at stepped
    exact closing.left (List.ne_nil_of_mem stepped.1)
  | _ => cases returns

/-! ## How far the scheduler is from its exit -/

/-- The steps that the scheduler has to take at most once `end` has been called. -/
private def State.distance (state : State Terminator Factor) : Nat :=
  match state.position with
  | .notStarted | .waiting | .exited => 0
  | .leaving => 1
  | .looping => 2
  | .scanning => 3
  | .prepared => if 0 < state.totalRemainingWaitingTime then 4 else 10
  | .preparing => if state.repeating then 5 else 11
  | .entering => if state.repeating then 6 else 12
  | .finishing => 8
  | .waited => 9
  | .awakened => 10
  | .calling => 13

/-- Once `end` has been called, the scheduler has a next step until it has exited, and none of its steps waits. -/
private theorem step_ready (closing : Closing state) (ended : state.ended = true) : state.position = .exited ∨
    ∃ event, Event.ofScheduler event = true ∧ (step rescale one state event).isSome := by
  cases here : state.position with
  | notStarted => exact absurd here (closing.started ended)
  | waiting => exact absurd here (closing.awake ended)
  | exited => exact .inl rfl
  | looping => exact .inr ⟨.checkRunning,rfl,by simp [step,here]⟩
  | calling => exact .inr ⟨.doControllerWait,rfl,by simp [step,here]⟩
  | entering => exact .inr ⟨.beginTimeslot 1,rfl,by simp [step,here]⟩
  | preparing => exact .inr ⟨.prepare 0 one,rfl,by simp [step,here]⟩
  | prepared =>
    refine .inr ⟨.tryWait,rfl,?_⟩
    simp only [step,here,if_true]
    split <;> rfl
  | awakened => exact .inr ⟨.acknowledge,rfl,by simp [step,here]⟩
  | waited => exact .inr ⟨.checkFactor,rfl,by simp [step,here]⟩
  | finishing => exact .inr ⟨.checkThreads false false 0,rfl,by simp [step,here]⟩
  | scanning => exact .inr ⟨.finishScan,rfl,by simp [step,here]⟩
  | leaving =>
    cases waits : state.waiting with
    | nil => exact .inr ⟨.notifyTerminator none,rfl,by simp [step,here,State.signal,waits]⟩
    | cons t rest => exact .inr ⟨.notifyTerminator (some (.terminator t)),rfl,by simp [step,here,State.signal,waits]⟩

private theorem signal_distance (state : State Terminator Factor) {signalled : Option (Waiter Terminator)} (awake : state.position ≠ .waiting)
    (sent : state.signal signalled = some next) : next.distance = state.distance := by
  rcases signal_cases sent with ⟨-,-,rfl⟩ | ⟨atWait,-⟩ | ⟨t,-,rfl⟩
  · rfl
  · exact absurd atWait awake
  · rfl

private theorem distance_le (state : State Terminator Factor) : state.distance ≤ 13 := by
  unfold State.distance
  split <;> (try split) <;> omega

private theorem prepare_remains {nsecWaited : Int} {timeWaitingFactor : Factor}
    (left : leavesTime rescale state nsecWaited timeWaitingFactor = true) :
    0 < (state.prepare rescale nsecWaited timeWaitingFactor).totalRemainingWaitingTime := by
  simp only [leavesTime,Bool.or_eq_true,decide_eq_true_eq] at left
  simp only [State.prepare]
  split
  · simp
  · next free => exact left.resolve_left free

/-- A step of the scheduler brings it nearer to its exit; the other threads change no distance. -/
private theorem step_distance (closing : Closing state) (ended : state.ended = true) (orderly : Orderly rescale state event)
    (stepped : step rescale one state event = some next) :
    next.distance + (if event.ofScheduler then 1 else 0) ≤ state.distance := by
  have awake := closing.awake ended
  have stopped := closing.stopped ended
  cases event <;> simp only [step,Option.ite_none_right_eq_some,Option.some.injEq] at stepped
  case endCalled t signalled =>
    obtain ⟨called,sent,rfl⟩ := Option.map_eq_some_iff.mp stepped.2
    exact (signal_distance { state with running := false,ended := true } awake sent).le
  case unconditionalWakeup signalled =>
    unfold State.unconditionalWakeup at stepped
    split at stepped
    · exact (signal_distance state awake stepped).le
    · cases stepped
      exact le_rfl
  case notifyTerminator signalled =>
    obtain ⟨here,sent⟩ := stepped
    have exits : next.distance = 0 := signal_distance { state with position := .exited } (by simp) sent
    rw [exits]
    simp [State.distance,here,Event.ofScheduler]
  case setTimeWaitingFactorChanged | setForceMinimumTimeslotSelection | setDecreaseSchedulerSleepingTimeBy =>
    obtain rfl := stepped
    exact le_rfl
  case tryWait =>
    obtain ⟨here,stepped⟩ := stepped
    split at stepped
    · next remains =>
      cases stepped
      simp [State.timedWait,stopped,State.distance,here,remains,Event.ofScheduler]
    · next spent =>
      cases stepped
      simp [State.distance,here,spent,Event.ofScheduler]
  all_goals obtain ⟨here,rfl⟩ := stepped
  case start => exact absurd here (closing.started ended)
  case expire => exact absurd here awake
  case spuriousWakeup | endReturns => exact le_rfl
  case checkRunning => simp [stopped,State.distance,here,Event.ofScheduler]
  case doControllerWait | acknowledge | finishScan => simp [State.distance,here,Event.ofScheduler]
  case beginTimeslot schedulerTimeslot =>
    cases again : state.repeating <;> simp [State.distance,here.1,again,Event.ofScheduler]
  case prepare nsecWaited timeWaitingFactor =>
    cases again : state.repeating with
    | false =>
      have prepared : (state.prepare rescale nsecWaited timeWaitingFactor).position = .prepared := rfl
      simp only [State.distance,here,again,prepared,Event.ofScheduler,if_true,Bool.false_eq_true,if_false]
      split <;> simp
    | true =>
      -- some of the timeslot is left to a pass that is repeated
      have remains := prepare_remains (orderly.timely _ rfl ended again)
      have prepared : (state.prepare rescale nsecWaited timeWaitingFactor).position = .prepared := rfl
      simp [State.distance,here,again,prepared,remains,Event.ofScheduler]
  case checkFactor => split <;> simp [State.distance,here,Event.ofScheduler]
  case checkThreads runnableThreadsEmpty runningThreadNull freeze =>
    split <;> simp [State.distance,here,Event.ofScheduler]

/-! ## The runs -/

/-- In every orderly run `end` returns after the scheduler has left its loop and nobody is left behind in it; once
    it has been called the scheduler waits no more and exits after at most 13 steps of its own. -/
theorem shutdown_completes (rescale : Int → Factor → Factor → Int) (one : Factor) (running changed : Bool)
    (events : List (Event Terminator Factor)) (last : State Terminator Factor)
    (executed : Runs.run (step rescale one) (initial Terminator one running changed) events = some last)
    (orderly : Runs.Meets (step rescale one) (Orderly rescale) (initial Terminator one running changed) events) :
    Runs.Meets (step rescale one) (fun state event => ∀ next ∈ step rescale one state event, Lawful state event next)
      (initial Terminator one running changed) events ∧
    (∀ before after middle, events = before ++ after →
      Runs.run (step rescale one) (initial Terminator one running changed) before = some middle →
      middle.ended = true → (after.filter Event.ofScheduler).length ≤ 13) ∧
    (last.ended = true → last.position = .exited ∨
      ∃ event, Event.ofScheduler event = true ∧ (step rescale one last event).isSome) := by
  have kept : ∀ (state : State Terminator Factor) event next, Closing state → Orderly rescale state event →
      step rescale one state event = some next → Closing next := fun _ _ _ => step_closing
  have start := @closing_initial Terminator Factor _ one running changed
  refine ⟨?_,fun before after middle split reached ended => ?_,fun ended => ?_⟩
  · exact Runs.meets_of_invariant kept (fun _ _ closing orderly _ stepped => lawful_of_orderly closing orderly stepped)
      start orderly
  · subst split
    obtain ⟨_,first,second⟩ := (Runs.run_append _ before after last).mp executed
    rw [reached,Option.some.injEq] at first
    subst first
    have later := Runs.meets_of_append orderly reached
    have closing : Closing middle := Runs.invariant_of_meets kept start (Runs.meets_of_earlier orderly) reached
    have bound := @Runs.own_steps_le _ _ _ _ (fun state => Closing state ∧ state.ended = true) State.distance
      Event.ofScheduler
      (fun _ _ _ inv orderly stepped => ⟨step_closing inv.1 orderly stepped,step_ended inv.2 stepped⟩)
      (fun _ _ _ inv orderly stepped => step_distance inv.1 inv.2 orderly stepped) _ _ _ ⟨closing,ended⟩ later second
    have far : middle.distance ≤ 13 := distance_le middle
    omega
  · exact step_ready (Runs.invariant_of_meets kept start orderly executed) ended

/-- The factors as whole numbers. -/
private def scaled (remaining previous current : Int) : Int := (remaining * previous).tdiv current

/-- The scheduler waits in its first timeslot. -/
private def asleep : List (Event Nat Int) :=
  [.start,.checkRunning,.doControllerWait,.beginTimeslot 100000000,.prepare 0 1,.tryWait]

/-- `end` is called, and the scheduler exits. -/
private def endedRun : List (Event Nat Int) :=
  asleep ++ [.endCalled 0 (some .scheduler),.acknowledge,.checkFactor,.checkThreads false false 0,.finishScan,.checkRunning,
    .notifyTerminator (some (.terminator 0)),.endReturns 0]

/-- The waiting scheduler is stopped, and the thread is back from `end`. -/
theorem asleep_shuts_down : ∃ last : State Nat Int,
    Runs.run (step scaled 1) (initial Nat 1 false false) endedRun = some last ∧
    last.position = .exited ∧ last.awakened = [] ∧
    Runs.Meets (step scaled 1) (fun state event => ∀ next ∈ step scaled 1 state event, Lawful state event next)
      (initial Nat 1 false false) endedRun := by
  have checked : (Runs.run (step scaled 1) (initial Nat 1 false false) endedRun).any
      (fun last => decide (last.position = .exited ∧ last.awakened = [])) = true := by decide +kernel
  obtain ⟨last,executed,found⟩ := Runs.exists_of_checked checked
  obtain ⟨exits,back⟩ : last.position = .exited ∧ last.awakened = [] := of_decide_eq_true found
  have orderly : Runs.Meets (step scaled 1) (Orderly scaled) (initial Nat 1 false false) endedRun := by decide +kernel
  exact ⟨last,executed,exits,back,(shutdown_completes scaled 1 false false _ last executed orderly).1⟩

/-- The scaling factor changes when the whole timeslot has been waited, and `end` is called. -/
private def spent : List (Event Nat Int) :=
  asleep ++ [.setTimeWaitingFactorChanged,.expire,.acknowledge,.checkFactor,.prepare 100000000 1,.tryWait,.checkFactor,
    .endCalled 0 none]

/-- A pass with no thread to schedule. -/
private def idlePass : List (Event Nat Int) :=
  [.checkThreads true true 0,.beginTimeslot 100000000,.prepare 0 1,.tryWait,.checkFactor]

/-- Where the time waited fills the timeslot, an idle pass ends where it has begun. -/
private theorem idle_passes (passes : Nat) {state : State Nat Int} (here : state.position = .finishing)
    (filled : 100000000 ≤ state.nsecAlreadyWaited) (unchanged : state.previousTimeWaitingFactor = 1)
    (settled : state.decreaseSchedulerSleepingTimeBy = 0) :
    ∃ last, Runs.run (step scaled 1) state (List.replicate passes idlePass).flatten = some last ∧
      last.position = .finishing := by
  induction passes generalizing state with
  | zero => exact ⟨state,rfl,here⟩
  | succ passes ih =>
    have none_left : ¬ state.nsecAlreadyWaited < 100000000 := not_lt.mpr filled
    obtain ⟨next,passed,here,filled,unchanged,settled⟩ : ∃ next, Runs.run (step scaled 1) state idlePass = some next ∧
        next.position = .finishing ∧ 100000000 ≤ next.nsecAlreadyWaited ∧ next.previousTimeWaitingFactor = 1 ∧
        next.decreaseSchedulerSleepingTimeBy = 0 := by
      simp [idlePass,Runs.run,step,here,State.prepare,scaled,unchanged,settled,noThreadsToSchedule,filled,none_left]
    obtain ⟨last,executed,there⟩ := ih here filled unchanged settled
    exact ⟨last,(Runs.run_append _ idlePass _ last).mpr ⟨next,passed,executed⟩,there⟩

/-- A notification of the scheduler that is awakening ends the wait of the thread in `end`; `start` overrules an
    `end` before it; an `end` after the exit is never told; and with no thread to schedule and the timeslot used up
    the scheduler goes on for any number of steps. -/
theorem shutdown_fails :
    ¬ Runs.Meets (step scaled 1) (fun state event => ∀ next ∈ step scaled 1 state event, Lawful state event next)
      (initial Nat 1 false false) (asleep ++ [.endCalled 0 (some .scheduler),
        .unconditionalWakeup (some (.terminator 0)),.endReturns 0]) ∧
    ¬ Runs.Meets (step scaled 1) (fun state event => ∀ next ∈ step scaled 1 state event, Lawful state event next)
      (initial Nat 1 false false) (.endCalled 0 none :: asleep) ∧
    ¬ Runs.Meets (step scaled 1) (fun state event => ∀ next ∈ step scaled 1 state event, Lawful state event next)
      (initial Nat 1 false false) (endedRun ++ [.endCalled 1 none]) ∧
    ∀ passes : Nat, ∃ middle last, Runs.run (step scaled 1) (initial Nat 1 false false) spent = some middle ∧
      middle.ended = true ∧
      Runs.run (step scaled 1) middle (List.replicate passes idlePass).flatten = some last ∧ last.position = .finishing := by
  refine ⟨by decide +kernel,by decide +kernel,by decide +kernel,fun passes => ?_⟩
  have checked : (Runs.run (step scaled 1) (initial Nat 1 false false) spent).any
      (fun middle => decide (middle.ended = true ∧ middle.position = .finishing ∧
        100000000 ≤ middle.nsecAlreadyWaited ∧ middle.previousTimeWaitingFactor = 1 ∧
        middle.decreaseSchedulerSleepingTimeBy = 0)) = true := by decide +kernel
  obtain ⟨middle,executed,found⟩ := Runs.exists_of_checked checked
  obtain ⟨ended,here,filled,unchanged,settled⟩ := of_decide_eq_true found
  obtain ⟨last,spins,there⟩ := idle_passes passes here filled unchanged settled
  exact ⟨middle,last,executed,ended,spins,there⟩

end Vexjine.Shutdown
