import Vexjine.Runs

/-!
# The scheduler's timed wait

`doControllerWait` between two scans of the runnable queue, with the threads
that notify the scheduler. A step is one critical section on the scheduler's
mutex or one access to a shared variable outside it. The flag that the scheduler
sets while it waits is also the one a thread sets for a notification that finds
the scheduler elsewhere.
-/

namespace Vexjine.ControllerWait
set_option linter.unusedSimpArgs false

/-- Where the scheduler is in its loop. -/
inductive Position
  | scanning    -- polls, suspends the running thread and resumes the top of the queue
  | scanned     -- about to call `doControllerWait`
  | preparing   -- at the head of the inner loop
  | prepared    -- the remaining time is computed
  | waiting     -- inside `pthread_cond_timedwait`, the mutex released
  | awakened    -- out of the wait set, not yet in possession of the mutex
  | waited      -- about to evaluate `timeWaitingFactorChanged`
  | finishing   -- about to evaluate `noThreadsToSchedule`
  deriving DecidableEq

structure Scheduler where
  position : Position
  schedulerWaitingForTimeslotExpiry : Bool
  timeWaitingFactorChanged : Bool
  /-- The calls of `_notifySchedulerForVirtualizedTime` between their two statements. -/
  notifying : Nat
  deriving DecidableEq

/-- A scheduler before its first wait; the constructor leaves the second flag as it finds it. -/
def initial (timeWaitingFactorChanged : Bool) : Scheduler := ⟨.scanned,false,timeWaitingFactorChanged,0⟩

namespace Scheduler

def unconditionalWakeup (scheduler : Scheduler) : Scheduler :=
  if scheduler.schedulerWaitingForTimeslotExpiry then
    -- nothing happens if no-one is waiting at the condition variable
    if scheduler.position = .waiting then { scheduler with position := .awakened } else scheduler
  else { scheduler with schedulerWaitingForTimeslotExpiry := true }

theorem unconditionalWakeup_position {scheduler : Scheduler} (awake : scheduler.position ≠ .waiting) :
    scheduler.unconditionalWakeup.position = scheduler.position := by
  rw [unconditionalWakeup,if_neg awake]
  split <;> rfl

/-- The locked section of the inner loop up to the wait. -/
def timedWait (scheduler : Scheduler) : Scheduler :=
  if scheduler.schedulerWaitingForTimeslotExpiry then
    { scheduler with schedulerWaitingForTimeslotExpiry := false, position := .scanning }
  else { scheduler with schedulerWaitingForTimeslotExpiry := true, position := .waiting }

end Scheduler

def noThreadsToSchedule (runnableThreadsEmpty runningThreadNull : Bool) (freeze : Int) : Bool :=
  (runnableThreadsEmpty && runningThreadNull) || decide (freeze ≠ 0)

/-- The scheduler's own steps first, then those of the threads. The remaining time and the emptiness
    of the queue come from outside. -/
inductive Event
  | finishScan
  | doControllerWait
  | prepare
  | tryWait (totalRemainingWaitingTime : Int)
  | expire
  | acknowledge
  | checkFactor
  | checkThreads (runnableThreadsEmpty runningThreadNull : Bool) (freeze : Int)
  | unconditionalWakeup
  | notifySchedulerForVirtualizedTime
  | notifySchedulerForVirtualizedTimeWakeup
  deriving DecidableEq

/-- One step; `none` where the party is not at it. -/
def step (scheduler : Scheduler) : Event → Option Scheduler
  | .finishScan => if scheduler.position = .scanning then some { scheduler with position := .scanned } else none
  | .doControllerWait => if scheduler.position = .scanned then some { scheduler with position := .preparing } else none
  | .prepare =>
    if scheduler.position = .preparing then
      some { scheduler with timeWaitingFactorChanged := false, position := .prepared }
    else none
  | .tryWait totalRemainingWaitingTime =>
    if scheduler.position = .prepared then
      if totalRemainingWaitingTime > 0 then some scheduler.timedWait
      else some { scheduler with position := .waited }
    else none
  | .expire => if scheduler.position = .waiting then some { scheduler with position := .awakened } else none
  | .acknowledge =>
    if scheduler.position = .awakened then
      some { scheduler with schedulerWaitingForTimeslotExpiry := false, position := .waited }
    else none
  | .checkFactor =>
    if scheduler.position = .waited then
      some { scheduler with position := if scheduler.timeWaitingFactorChanged then .preparing else .finishing }
    else none
  | .checkThreads runnableThreadsEmpty runningThreadNull freeze =>
    if scheduler.position = .finishing then
      some { scheduler with position :=
        if noThreadsToSchedule runnableThreadsEmpty runningThreadNull freeze then .preparing else .scanning }
    else none
  | .unconditionalWakeup => some scheduler.unconditionalWakeup
  | .notifySchedulerForVirtualizedTime =>
    some { scheduler with timeWaitingFactorChanged := true, notifying := scheduler.notifying + 1 }
  | .notifySchedulerForVirtualizedTimeWakeup =>
    if 0 < scheduler.notifying then
      some ({ scheduler with notifying := scheduler.notifying - 1 } : Scheduler).unconditionalWakeup
    else none

/-- A thread's wake-up of the scheduler. -/
def Notifies : Event → Prop
  | .unconditionalWakeup | .notifySchedulerForVirtualizedTimeWakeup => True
  | _ => False

/-- A step of the scheduler itself. -/
def Scheduler.takes : Event → Bool
  | .unconditionalWakeup | .notifySchedulerForVirtualizedTime | .notifySchedulerForVirtualizedTimeWakeup => false
  | _ => true

def StartsTimedWait (scheduler : Scheduler) (event : Event) : Prop :=
  scheduler.position ≠ .waiting ∧ ∃ next, step scheduler event = some next ∧ next.position = .waiting

/-- One of the two loops of `doControllerWait` is entered again. -/
def LoopsAgain (scheduler : Scheduler) : Event → Prop
  | .checkFactor => scheduler.timeWaitingFactorChanged = true
  | .checkThreads runnableThreadsEmpty runningThreadNull freeze =>
    noThreadsToSchedule runnableThreadsEmpty runningThreadNull freeze = true
  | _ => False

/-- A loop is entered again with no notification pending: those since the scan were taken by a wait. -/
def LoopsAgainUnnotified (scheduler : Scheduler) (event : Event) : Prop :=
  LoopsAgain scheduler event ∧ scheduler.schedulerWaitingForTimeslotExpiry = false

/-! ## After a notification -/

/-- Who waits has said so. -/
private def Announced (scheduler : Scheduler) : Prop :=
  scheduler.position = .waiting ∨ scheduler.position = .awakened → scheduler.schedulerWaitingForTimeslotExpiry = true

/-- The scheduler does not wait, and a flag stops it before the next wait. -/
private structure Noticed (scheduler : Scheduler) : Prop where
  awake : scheduler.position ≠ .waiting
  pending : scheduler.position = .scanned ∨ scheduler.position = .preparing ∨ scheduler.position = .prepared →
    scheduler.schedulerWaitingForTimeslotExpiry = true

/-- How many steps the scheduler is from its next scan when it does not wait and enters no loop again. -/
private def Position.distance : Position → Nat
  | .scanning | .waiting => 0
  | .finishing => 1
  | .waited => 2
  | .prepared | .awakened => 3
  | .preparing => 4
  | .scanned => 5

private theorem wakeup_announced {scheduler : Scheduler} (inv : Announced scheduler) :
    Announced scheduler.unconditionalWakeup := by
  unfold Scheduler.unconditionalWakeup
  split
  · split
    · exact fun _ => ‹_›
    · exact inv
  · exact fun _ => rfl

private theorem step_announced {scheduler next : Scheduler} {event : Event} (inv : Announced scheduler)
    (stepped : step scheduler event = some next) : Announced next := by
  cases event with
  | tryWait remaining =>
    simp only [step,Scheduler.timedWait,Option.ite_none_right_eq_some] at stepped
    obtain ⟨-,result⟩ := stepped
    split at result
    · split at result <;> (cases result; simp [Announced])
    · cases result
      simp [Announced]
  | expire =>
    simp only [step,Option.ite_none_right_eq_some,Option.some.injEq] at stepped
    obtain ⟨atWait,rfl⟩ := stepped
    exact fun _ => inv (.inl atWait)
  | unconditionalWakeup =>
    simp only [step,Option.some.injEq] at stepped
    obtain rfl := stepped
    exact wakeup_announced inv
  | notifySchedulerForVirtualizedTime =>
    simp only [step,Option.some.injEq] at stepped
    obtain rfl := stepped
    exact inv
  | notifySchedulerForVirtualizedTimeWakeup =>
    simp only [step,Option.ite_none_right_eq_some,Option.some.injEq] at stepped
    obtain ⟨-,rfl⟩ := stepped
    exact wakeup_announced inv
  | checkFactor =>
    simp only [step,Option.ite_none_right_eq_some,Option.some.injEq] at stepped
    obtain ⟨-,rfl⟩ := stepped
    cases changed : scheduler.timeWaitingFactorChanged <;> simp [Announced,changed]
  | checkThreads empty null freeze =>
    simp only [step,Option.ite_none_right_eq_some,Option.some.injEq] at stepped
    obtain ⟨-,rfl⟩ := stepped
    cases none : noThreadsToSchedule empty null freeze <;> simp [Announced,none]
  | finishScan | doControllerWait | prepare | acknowledge =>
    simp only [step,Option.ite_none_right_eq_some,Option.some.injEq] at stepped
    obtain ⟨-,rfl⟩ := stepped
    simp [Announced]

/-- A wake-up takes the scheduler out of the wait or leaves the flag for its next wait. -/
private theorem wakeup_noticed {scheduler : Scheduler} (inv : Announced scheduler) :
    Noticed scheduler.unconditionalWakeup := by
  unfold Scheduler.unconditionalWakeup
  by_cases flagged : scheduler.schedulerWaitingForTimeslotExpiry = true
  · rw [if_pos flagged]
    by_cases atWait : scheduler.position = .waiting
    · rw [if_pos atWait]
      exact ⟨by simp,by simp⟩
    · rw [if_neg atWait]
      exact ⟨atWait,fun _ => flagged⟩
  · rw [if_neg flagged]
    exact ⟨fun atWait => flagged (inv (.inl atWait)),fun _ => rfl⟩

private theorem notification_noticed {scheduler notified : Scheduler} (notification : Event)
    (inv : Announced scheduler) (notifies : Notifies notification)
    (received : step scheduler notification = some notified) : Noticed notified := by
  cases notification with
  | unconditionalWakeup =>
    simp only [step,Option.some.injEq] at received
    obtain rfl := received
    exact wakeup_noticed inv
  | notifySchedulerForVirtualizedTimeWakeup =>
    simp only [step,Option.ite_none_right_eq_some,Option.some.injEq] at received
    obtain ⟨-,rfl⟩ := received
    exact wakeup_noticed inv
  | _ => cases notifies

/-- What a step of one call keeps of a notification, unless a loop is entered again after it was taken. -/
private theorem step_noticed {scheduler next : Scheduler} {event : Event}
    (inv : Announced scheduler ∧ Noticed scheduler)
    (once : event ≠ .finishScan ∧ ¬ LoopsAgainUnnotified scheduler event)
    (stepped : step scheduler event = some next) : Announced next ∧ Noticed next := by
  refine ⟨step_announced inv.1 stepped,?_⟩
  obtain ⟨announced,noticed⟩ := inv
  cases event with
  | finishScan => exact absurd rfl once.1
  | unconditionalWakeup =>
    exact notification_noticed .unconditionalWakeup announced trivial stepped
  | notifySchedulerForVirtualizedTimeWakeup =>
    exact notification_noticed .notifySchedulerForVirtualizedTimeWakeup announced trivial stepped
  | notifySchedulerForVirtualizedTime =>
    simp only [step,Option.some.injEq] at stepped
    obtain rfl := stepped
    exact ⟨noticed.awake,noticed.pending⟩
  | tryWait remaining =>
    simp only [step,Option.ite_none_right_eq_some] at stepped
    obtain ⟨atPrepared,result⟩ := stepped
    -- the flag is set, so the locked section returns
    have flagged := noticed.pending (.inr (.inr atPrepared))
    simp only [Scheduler.timedWait,flagged,if_true] at result
    split at result <;> (cases result; exact ⟨by simp,by simp⟩)
  | expire =>
    simp only [step,Option.ite_none_right_eq_some] at stepped
    exact absurd stepped.1 noticed.awake
  | checkFactor =>
    simp only [step,Option.ite_none_right_eq_some,Option.some.injEq] at stepped
    obtain ⟨-,rfl⟩ := stepped
    cases changed : scheduler.timeWaitingFactorChanged with
    | false => exact ⟨by simp,by simp⟩
    | true =>
      refine ⟨by simp,fun _ => ?_⟩
      exact Bool.not_eq_false _ ▸ fun cleared => once.2 ⟨changed,cleared⟩
  | checkThreads empty null freeze =>
    simp only [step,Option.ite_none_right_eq_some,Option.some.injEq] at stepped
    obtain ⟨-,rfl⟩ := stepped
    cases none : noThreadsToSchedule empty null freeze with
    | false => exact ⟨by simp,by simp⟩
    | true =>
      refine ⟨by simp,fun _ => ?_⟩
      exact Bool.not_eq_false _ ▸ fun cleared => once.2 ⟨none,cleared⟩
  | doControllerWait =>
    simp only [step,Option.ite_none_right_eq_some,Option.some.injEq] at stepped
    obtain ⟨atScanned,rfl⟩ := stepped
    exact ⟨by simp,fun _ => noticed.pending (.inl atScanned)⟩
  | prepare =>
    simp only [step,Option.ite_none_right_eq_some,Option.some.injEq] at stepped
    obtain ⟨atPreparing,rfl⟩ := stepped
    exact ⟨by simp,fun _ => noticed.pending (.inr (.inl atPreparing))⟩
  | acknowledge =>
    simp only [step,Option.ite_none_right_eq_some,Option.some.injEq] at stepped
    obtain ⟨-,rfl⟩ := stepped
    exact ⟨by simp,by simp⟩

/-- A step of the scheduler brings it nearer to its scan; one of a thread changes no distance. -/
private theorem step_distance {scheduler next : Scheduler} {event : Event} (noticed : Noticed scheduler)
    (once : event ≠ .finishScan ∧ ¬ LoopsAgain scheduler event) (stepped : step scheduler event = some next) :
    next.position.distance + (if Scheduler.takes event then 1 else 0) ≤ scheduler.position.distance := by
  have wakes : ∀ scheduler : Scheduler, scheduler.position ≠ .waiting →
      scheduler.unconditionalWakeup.position.distance ≤ scheduler.position.distance := by
    intro scheduler awake
    rw [Scheduler.unconditionalWakeup_position awake]
  cases event with
  | finishScan => exact absurd rfl once.1
  | unconditionalWakeup =>
    simp only [step,Option.some.injEq] at stepped
    obtain rfl := stepped
    simpa [Scheduler.takes] using wakes scheduler noticed.awake
  | notifySchedulerForVirtualizedTime =>
    simp only [step,Option.some.injEq] at stepped
    obtain rfl := stepped
    exact le_rfl
  | notifySchedulerForVirtualizedTimeWakeup =>
    simp only [step,Option.ite_none_right_eq_some,Option.some.injEq] at stepped
    obtain ⟨-,rfl⟩ := stepped
    simpa [Scheduler.takes] using wakes { scheduler with notifying := scheduler.notifying - 1 } noticed.awake
  | tryWait remaining =>
    simp only [step,Option.ite_none_right_eq_some] at stepped
    obtain ⟨atPrepared,result⟩ := stepped
    have flagged := noticed.pending (.inr (.inr atPrepared))
    simp only [Scheduler.timedWait,flagged,if_true] at result
    split at result <;> (cases result; simp [atPrepared,Position.distance,Scheduler.takes])
  | expire =>
    simp only [step,Option.ite_none_right_eq_some] at stepped
    exact absurd stepped.1 noticed.awake
  | checkFactor =>
    simp only [step,Option.ite_none_right_eq_some,Option.some.injEq] at stepped
    obtain ⟨atWaited,rfl⟩ := stepped
    have unchanged : scheduler.timeWaitingFactorChanged = false := by simpa [LoopsAgain] using once.2
    simp [unchanged,atWaited,Position.distance,Scheduler.takes]
  | checkThreads empty null freeze =>
    simp only [step,Option.ite_none_right_eq_some,Option.some.injEq] at stepped
    obtain ⟨atFinishing,rfl⟩ := stepped
    have some' : noThreadsToSchedule empty null freeze = false := by simpa [LoopsAgain] using once.2
    simp [some',atFinishing,Position.distance,Scheduler.takes]
  | doControllerWait | prepare | acknowledge =>
    simp only [step,Option.ite_none_right_eq_some,Option.some.injEq] at stepped
    obtain ⟨here,rfl⟩ := stepped
    simp [here,Position.distance,Scheduler.takes]

/-- The scheduler that does not wait has a next step of its own. -/
private theorem step_ready {scheduler : Scheduler} (awake : scheduler.position ≠ .waiting) :
    scheduler.position = .scanning ∨
      ∃ event, Scheduler.takes event = true ∧ event ≠ .finishScan ∧ (step scheduler event).isSome := by
  cases here : scheduler.position with
  | scanning => exact .inl rfl
  | scanned => exact .inr ⟨.doControllerWait,rfl,by simp,by simp [step,here]⟩
  | preparing => exact .inr ⟨.prepare,rfl,by simp,by simp [step,here]⟩
  | prepared => exact .inr ⟨.tryWait 0,rfl,by simp,by simp [step,here]⟩
  | waiting => exact absurd here awake
  | awakened => exact .inr ⟨.acknowledge,rfl,by simp,by simp [step,here]⟩
  | waited => exact .inr ⟨.checkFactor,rfl,by simp,by simp [step,here]⟩
  | finishing => exact .inr ⟨.checkThreads false false 0,rfl,by simp,by simp [step,here]⟩

private theorem reached_announced {changed : Bool} {events : List Event} {scheduler : Scheduler}
    (executed : Runs.run step (initial changed) events = some scheduler) : Announced scheduler :=
  Runs.invariant (fun _ _ _ inv stepped => step_announced inv stepped) (by simp [Announced,initial]) executed

/-- The steps of one call after a notification. -/
def InCall (condition : Scheduler → Event → Prop) (scheduler : Scheduler) (events : List Event) : Prop :=
  Runs.Meets step (fun scheduler event => event ≠ .finishScan ∧ ¬ condition scheduler event) scheduler events

private theorem noticed_no_wait {scheduler last : Scheduler} {events : List Event}
    (inv : Announced scheduler ∧ Noticed scheduler) (executed : Runs.run step scheduler events = some last)
    (once : InCall LoopsAgainUnnotified scheduler events) :
    Runs.Meets step (fun scheduler event => ¬ StartsTimedWait scheduler event) scheduler events ∧ Noticed last := by
  induction events generalizing scheduler with
  | nil =>
    cases executed
    exact ⟨trivial,inv.2⟩
  | cons event rest ih =>
    obtain ⟨next,stepped,remaining⟩ := (Runs.run_cons scheduler event rest last).mp executed
    have kept := step_noticed inv once.1 stepped
    have later := ih kept remaining (once.2 next stepped)
    refine ⟨⟨?_,fun other same => ?_⟩,later.2⟩
    · rintro ⟨-,other,same,atWait⟩
      rw [stepped,Option.some.injEq] at same
      exact kept.2.awake (same ▸ atWait)
    · rw [Option.mem_def,stepped,Option.some.injEq] at same
      exact same ▸ later.1

private theorem inCall_weaken {scheduler : Scheduler} {events : List Event} (once : InCall LoopsAgain scheduler events) :
    InCall LoopsAgainUnnotified scheduler events := by
  induction events generalizing scheduler with
  | nil => trivial
  | cons event rest ih =>
    exact ⟨⟨once.1.1,fun loops => once.1.2 loops.1⟩,fun next stepped => ih (once.2 next stepped)⟩

private theorem noticed_bound {scheduler last : Scheduler} {events : List Event}
    (inv : Announced scheduler ∧ Noticed scheduler) (executed : Runs.run step scheduler events = some last)
    (once : InCall LoopsAgain scheduler events) :
    last.position.distance + (events.filter Scheduler.takes).length ≤ scheduler.position.distance := by
  induction events generalizing scheduler with
  | nil =>
    cases executed
    simp
  | cons event rest ih =>
    obtain ⟨next,stepped,remaining⟩ := (Runs.run_cons scheduler event rest last).mp executed
    have kept := step_noticed inv ⟨once.1.1,fun loops => once.1.2 loops.1⟩ stepped
    have later := ih kept remaining (once.2 next stepped)
    have nearer := step_distance inv.2 once.1 stepped
    cases own : Scheduler.takes event with
    | true =>
      rw [own,if_pos rfl] at nearer
      rw [List.filter_cons_of_pos own,List.length_cons]
      omega
    | false =>
      rw [own,if_neg (by simp)] at nearer
      rw [List.filter_cons_of_neg (by simp [own])]
      omega

/-- A wake-up after the last scan starts no further timed wait before the next one, unless a wait took
    it and the scheduler then finds the scaling factor changed or no threads to schedule. Without such
    a repetition the scheduler is back at its scan after five steps of its own and is never blocked. -/
theorem notification_ends_wait (changed : Bool) (before after : List Event) (scheduler notified last : Scheduler)
    (notification : Event) (executed : Runs.run step (initial changed) before = some scheduler)
    (notifies : Notifies notification) (received : step scheduler notification = some notified)
    (continued : Runs.run step notified after = some last) :
    (InCall LoopsAgainUnnotified notified after →
      Runs.Meets step (fun scheduler event => ¬ StartsTimedWait scheduler event) notified after) ∧
    (InCall LoopsAgain notified after →
      (after.filter Scheduler.takes).length ≤ 5 ∧ (last.position = .scanning ∨
        ∃ event, Scheduler.takes event = true ∧ event ≠ .finishScan ∧ (step last event).isSome)) := by
  have announced := reached_announced executed
  have inv : Announced notified ∧ Noticed notified :=
    ⟨step_announced announced received,notification_noticed notification announced notifies received⟩
  refine ⟨fun once => (noticed_no_wait inv continued once).1,fun once => ⟨?_,?_⟩⟩
  · have bound := noticed_bound inv continued once
    have most : notified.position.distance ≤ 5 := by cases notified.position <;> decide
    omega
  · exact step_ready (noticed_no_wait inv continued (inCall_weaken once)).2.awake

private def untilWait : List Event := [.doControllerWait,.prepare,.tryWait 100000000]

private def atWait : Scheduler := ⟨.waiting,true,false,0⟩

/-- A wake-up of the waiting scheduler: it leaves the wait and returns. -/
theorem wakeup_ends_wait : Runs.run step (initial false) untilWait = some atWait ∧
    ∃ notified last, step atWait .unconditionalWakeup = some notified ∧
      Runs.run step notified [.acknowledge,.checkFactor,.checkThreads true false 0] = some last ∧
      last.position = .scanning ∧ Runs.Meets step (fun scheduler event => ¬ StartsTimedWait scheduler event) notified
        [.acknowledge,.checkFactor,.checkThreads true false 0] := by
  have executed : Runs.run step (initial false) untilWait = some atWait := rfl
  refine ⟨executed,_,_,rfl,rfl,rfl,?_⟩
  refine (notification_ends_wait false untilWait _ atWait _ _ .unconditionalWakeup executed trivial rfl rfl).1 ?_
  simp [InCall,Runs.Meets,LoopsAgainUnnotified,LoopsAgain,step,atWait,Scheduler.unconditionalWakeup,noThreadsToSchedule]

/-- A change of the scaling factor during the wait: its wake-up ends the wait, and the scheduler
    waits again for the rest of the time slot although there are threads to schedule. -/
theorem factor_change_waits_again : ∃ scheduler notified last,
    Runs.run step (initial false) (untilWait ++ [.notifySchedulerForVirtualizedTime]) = some scheduler ∧
    step scheduler .notifySchedulerForVirtualizedTimeWakeup = some notified ∧
    Runs.run step notified [.acknowledge,.checkFactor,.prepare] = some last ∧ StartsTimedWait last (.tryWait 50000000) :=
  ⟨_,_,_,rfl,rfl,rfl,by decide,_,rfl,rfl⟩

end Vexjine.ControllerWait
