import Vexjine.ControllerWait
import Vexjine.Floats

/-!
# Accounting for the scheduler's time slot

`doControllerWait` with its clocks: what is left of a time slot is converted between
virtual and real nanoseconds at each change of the scaling factor, and the deadline of
the timed wait is put together from seconds and nanoseconds. The ghost fields count
what was slept, weighted with the factor in force.
-/

namespace Vexjine.SlotAccounting
open Floats ControllerWait
set_option linter.unusedSimpArgs false

/-! ## Deadlines -/

structure Timespec where
  tvSec : Int
  tvNsec : Int

namespace Timespec

/-- In nanoseconds. -/
def time (ts : Timespec) : Int := ts.tvSec * 1000000000 + ts.tvNsec

/-- `clock_gettime`. -/
def clockGettime (now : Int) : Timespec := ⟨now / 1000000000,now % 1000000000⟩

/-- The loop that carries nanoseconds to seconds; it leaves a whole second in place. -/
def carried (ts : Timespec) : Timespec :=
  if ts.tvNsec > 1000000000 then carried ⟨ts.tvSec + 1,ts.tvNsec - 1000000000⟩ else ts
termination_by ts.tvNsec.toNat
decreasing_by omega

def IsNormalised (ts : Timespec) : Prop := 0 ≤ ts.tvNsec ∧ ts.tvNsec < 1000000000

instance (ts : Timespec) : Decidable ts.IsNormalised := inferInstanceAs (Decidable (_ ∧ _))

@[simp] theorem clockGettime_time (now : Int) : (clockGettime now).time = now := by
  simp only [clockGettime,time]
  omega

@[simp] theorem carried_time (ts : Timespec) : ts.carried.time = ts.time := by
  induction ts using carried.induct with
  | case1 ts more ih =>
    rw [carried,if_pos more,ih]
    simp only [time]
    ring
  | case2 ts done => rw [carried,if_neg done]

theorem carried_tvNsec (ts : Timespec) (positive : 0 < ts.tvNsec) :
    0 < ts.carried.tvNsec ∧ ts.carried.tvNsec ≤ 1000000000 := by
  induction ts using carried.induct with
  | case1 ts more ih =>
    rw [carried,if_pos more]
    exact ih (by simp only; omega)
  | case2 ts done =>
    rw [carried,if_neg done]
    omega

/-- Only whole seconds are left unnormalised. -/
theorem carried_isNormalised {ts : Timespec} (positive : 0 < ts.tvNsec) (fraction : ts.tvNsec % 1000000000 ≠ 0) :
    ts.carried.IsNormalised := by
  obtain ⟨above,below⟩ := carried_tvNsec ts positive
  have same := carried_time ts
  simp only [time] at same
  exact ⟨above.le,by omega⟩

end Timespec

/-! ## The scheduler with its clocks -/

/-- What is left, in real nanoseconds under the new factor. -/
def remainingTime (time : Int) (previousTimeWaitingFactor timeWaitingFactor : ℚ) : Int :=
  truncated (toDouble (toFloat (toFloat time * previousTimeWaitingFactor) / timeWaitingFactor))

/-- `tp` counts microseconds; the first wait finds it uninitialised. -/
structure Timing where
  scheduler : Scheduler
  now : Int
  schedulerTimeslot : Int
  decreaseSchedulerSleepingTimeBy : Int
  forceMinimumTimeslotSelection : Bool
  timeScalingFactor : ℚ
  totalRemainingWaitingTime : Int
  nsecAlreadyWaited : Int
  timeWaitingFactor : ℚ
  previousTimeWaitingFactor : ℚ
  alreadyWaited : Bool
  tp : Int
  lastRealTimeTs : Timespec
  ts : Timespec
  /-- The time slot at the start of the round. -/
  slot : Int
  /-- The reductions that the round has taken. -/
  requested : Int
  /-- Since the remaining time was last computed. -/
  slept : Int
  /-- The times slept in the round, each multiplied by its factor. -/
  weighted : ℚ

inductive Event
  | scheduler (event : ControllerWait.Event)
  | pass (nanoseconds : ℕ)
  | decreaseSleepingTime (time : Int)
  | setSchedulerTimeslot (timeslot : Int)
  | setTimeScalingFactor (factor : ℚ)

namespace Timing
variable (timing : Timing)

/-- The head of the outer loop. -/
def startRound : Timing :=
  { timing with
    totalRemainingWaitingTime := timing.schedulerTimeslot
    forceMinimumTimeslotSelection := false
    alreadyWaited := false
    slot := timing.schedulerTimeslot
    requested := 0
    slept := 0
    weighted := 0 }

/-- From `gettimeofday`, in microseconds. -/
def measuredWait : Int := truncated (toDouble (1000 * (timing.now / 1000 - timing.tp) : Int))

def measure : Timing :=
  if timing.alreadyWaited then
    { timing with
      nsecAlreadyWaited := timing.measuredWait
      previousTimeWaitingFactor := timing.timeWaitingFactor }
  else timing

def takeReduction : Timing :=
  { timing with
    timeWaitingFactor := timing.timeScalingFactor
    nsecAlreadyWaited := timing.nsecAlreadyWaited + timing.decreaseSchedulerSleepingTimeBy
    decreaseSchedulerSleepingTimeBy := 0
    alreadyWaited := true
    requested := timing.requested + timing.decreaseSchedulerSleepingTimeBy
    slept := 0 }

def selectRemaining : Timing :=
  { timing with
    totalRemainingWaitingTime :=
      if timing.forceMinimumTimeslotSelection then 1000000
      else remainingTime (timing.totalRemainingWaitingTime - timing.nsecAlreadyWaited) timing.previousTimeWaitingFactor
        timing.timeWaitingFactor }

def readClock : Timing :=
  if 0 < timing.totalRemainingWaitingTime then
    { timing with lastRealTimeTs := .clockGettime timing.now, tp := timing.now / 1000 }
  else timing

/-- The inner loop up to the deadline. -/
def prepare : Timing := timing.measure.takeReduction.selectRemaining.readClock

def setDeadline : Timing :=
  if 0 < timing.totalRemainingWaitingTime then
    { timing with
      ts := Timespec.carried ⟨timing.lastRealTimeTs.tvSec,
        timing.lastRealTimeTs.tvNsec + timing.totalRemainingWaitingTime⟩ }
  else timing

/-- Assertions, and that the wait is for the time computed. -/
def asserts : ControllerWait.Event → Bool
  | .doControllerWait => decide (0 < timing.schedulerTimeslot)
  | .prepare => decide (0 < timing.timeScalingFactor)
  | .tryWait totalRemainingWaitingTime => decide (totalRemainingWaitingTime = timing.totalRemainingWaitingTime)
  | .checkThreads runnableThreadsEmpty runningThreadNull freeze =>
    !noThreadsToSchedule runnableThreadsEmpty runningThreadNull freeze || decide (0 < timing.schedulerTimeslot)
  | _ => true

def perform : ControllerWait.Event → Timing
  | .doControllerWait => { timing with nsecAlreadyWaited := 0, previousTimeWaitingFactor := 1 }.startRound
  | .prepare => timing.prepare
  | .tryWait _ => timing.setDeadline
  | .checkThreads runnableThreadsEmpty runningThreadNull freeze =>
    if noThreadsToSchedule runnableThreadsEmpty runningThreadNull freeze then timing.startRound else timing
  | _ => timing

/-- The wait ends at its deadline, and at once with a deadline that is no time. -/
def CanPass (nanoseconds : ℕ) : Prop :=
  timing.scheduler.position = .waiting → timing.ts.IsNormalised ∧ timing.now + nanoseconds ≤ timing.ts.time

instance (nanoseconds : ℕ) : Decidable (timing.CanPass nanoseconds) := inferInstanceAs (Decidable (_ → _))

def pass (nanoseconds : ℕ) : Timing :=
  if timing.scheduler.position = .waiting then
    { timing with
      now := timing.now + nanoseconds
      slept := timing.slept + nanoseconds
      weighted := timing.weighted + nanoseconds * timing.timeWaitingFactor }
  else { timing with now := timing.now + nanoseconds }

end Timing

def step (timing : Timing) : Event → Option Timing
  | .scheduler event =>
    if timing.asserts event then
      (ControllerWait.step timing.scheduler event).map fun scheduler => { timing.perform event with scheduler }
    else none
  | .pass nanoseconds => if timing.CanPass nanoseconds then some (timing.pass nanoseconds) else none
  | .decreaseSleepingTime time =>
    some { timing with decreaseSchedulerSleepingTimeBy := timing.decreaseSchedulerSleepingTimeBy + time }
  | .setSchedulerTimeslot timeslot => some (if 0 < timeslot then { timing with schedulerTimeslot := timeslot } else timing)
  | .setTimeScalingFactor factor => some { timing with timeScalingFactor := factor }

/-- A manager before the call, with any leftovers of earlier ones. -/
structure Start where
  now : Int
  schedulerTimeslot : Int
  decreaseSchedulerSleepingTimeBy : Int
  forceMinimumTimeslotSelection : Bool
  timeScalingFactor : ℚ
  timeWaitingFactorChanged : Bool
  tp : Int
  lastRealTimeTs : Timespec

def initial (start : Start) : Timing where
  scheduler := ControllerWait.initial start.timeWaitingFactorChanged
  now := start.now
  schedulerTimeslot := start.schedulerTimeslot
  decreaseSchedulerSleepingTimeBy := start.decreaseSchedulerSleepingTimeBy
  forceMinimumTimeslotSelection := start.forceMinimumTimeslotSelection
  timeScalingFactor := start.timeScalingFactor
  totalRemainingWaitingTime := 0
  nsecAlreadyWaited := 0
  timeWaitingFactor := 1
  previousTimeWaitingFactor := 1
  alreadyWaited := false
  tp := start.tp
  lastRealTimeTs := start.lastRealTimeTs
  ts := ⟨0,0⟩
  slot := start.schedulerTimeslot
  requested := 0
  slept := 0
  weighted := 0

/-! ## What is claimed of a step -/

/-- A round first computes its remaining time from the full time slot. -/
def StartsFromSlot (timing : Timing) (event : Event) : Prop :=
  event = .scheduler .prepare → timing.alreadyWaited = false → ∀ next ∈ step timing event,
    next.totalRemainingWaitingTime =
      remainingTime (timing.slot - timing.decreaseSchedulerSleepingTimeBy) 1 timing.timeScalingFactor

/-- No more than the slot less the reductions is slept. -/
def SleepsWithinSlot (timing : Timing) (event : Event) : Prop :=
  ∀ next ∈ step timing event, next.weighted ≤ max 0 ((next.slot - next.requested : Int) : ℚ)

def PassesNormalisedDeadline (timing : Timing) (event : Event) : Prop :=
  ∀ next ∈ step timing event, timing.scheduler.position ≠ .waiting → next.scheduler.position = .waiting → next.ts.IsNormalised

structure Accounts (timing : Timing) (event : Event) : Prop where
  fullSlot : StartsFromSlot timing event
  bounded : SleepsWithinSlot timing event
  normalised : PassesNormalisedDeadline timing event

/-- No conversion of the time rounds it up. -/
structure NotRoundedUp (time : Int) (previousTimeWaitingFactor timeWaitingFactor : ℚ) : Prop where
  float : toFloat time ≤ time
  product : toFloat (toFloat time * previousTimeWaitingFactor) ≤ toFloat time * previousTimeWaitingFactor
  quotient : toDouble (toFloat (toFloat time * previousTimeWaitingFactor) / timeWaitingFactor) ≤
    toFloat (toFloat time * previousTimeWaitingFactor) / timeWaitingFactor

instance (time : Int) (previousTimeWaitingFactor timeWaitingFactor : ℚ) :
    Decidable (NotRoundedUp time previousTimeWaitingFactor timeWaitingFactor) :=
  decidable_of_iff (toFloat time ≤ time ∧
      toFloat (toFloat time * previousTimeWaitingFactor) ≤ toFloat time * previousTimeWaitingFactor ∧
      toDouble (toFloat (toFloat time * previousTimeWaitingFactor) / timeWaitingFactor) ≤
        toFloat (toFloat time * previousTimeWaitingFactor) / timeWaitingFactor)
    ⟨fun own => ⟨own.1,own.2.1,own.2.2⟩,fun fits => ⟨fits.float,fits.product,fits.quotient⟩⟩

/-- The measured wait is not shorter than the real one, and a further reduction neither counts less under the
    factor of the wait nor is more than what is left, unless nothing was slept. -/
structure Remains (timing : Timing) : Prop where
  measured : timing.slept ≤ timing.measuredWait
  scaled : (timing.decreaseSchedulerSleepingTimeBy : ℚ) ≤ timing.decreaseSchedulerSleepingTimeBy * timing.timeWaitingFactor
  left : timing.weighted = 0 ∨ timing.weighted + timing.decreaseSchedulerSleepingTimeBy ≤ (timing.slot - timing.requested : Int)
  nothingAdded : 0 < timing.totalRemainingWaitingTime ∨ 0 ≤ timing.decreaseSchedulerSleepingTimeBy

instance (timing : Timing) : Decidable (Remains timing) :=
  decidable_of_iff (timing.slept ≤ timing.measuredWait ∧
      (timing.decreaseSchedulerSleepingTimeBy : ℚ) ≤ timing.decreaseSchedulerSleepingTimeBy * timing.timeWaitingFactor ∧
      (timing.weighted = 0 ∨
        timing.weighted + timing.decreaseSchedulerSleepingTimeBy ≤ (timing.slot - timing.requested : Int)) ∧
      (0 < timing.totalRemainingWaitingTime ∨ 0 ≤ timing.decreaseSchedulerSleepingTimeBy))
    ⟨fun own => ⟨own.1,own.2.1,own.2.2.1,own.2.2.2⟩,
      fun remains => ⟨remains.measured,remains.scaled,remains.left,remains.nothingAdded⟩⟩

/-- What a step needs: times that survive rounding, nothing left over when a round is repeated, and a deadline
    that is no whole second. -/
def Tracks (timing : Timing) : Event → Prop
  | .scheduler .prepare =>
    (if timing.alreadyWaited then
      Remains timing ∧ NotRoundedUp (timing.totalRemainingWaitingTime -
        (timing.measuredWait + timing.decreaseSchedulerSleepingTimeBy)) timing.timeWaitingFactor timing.timeScalingFactor
    else NotRoundedUp (timing.totalRemainingWaitingTime - timing.decreaseSchedulerSleepingTimeBy) 1 timing.timeScalingFactor)
  | .scheduler (.tryWait _) =>
    timing.scheduler.schedulerWaitingForTimeslotExpiry = false → 0 < timing.totalRemainingWaitingTime →
      (timing.lastRealTimeTs.tvNsec + timing.totalRemainingWaitingTime) % 1000000000 ≠ 0
  | .scheduler (.checkThreads runnableThreadsEmpty runningThreadNull freeze) =>
    noThreadsToSchedule runnableThreadsEmpty runningThreadNull freeze = true →
      timing.nsecAlreadyWaited = 0 ∧ timing.previousTimeWaitingFactor = 1
  | _ => True

instance (timing : Timing) : (event : Event) → Decidable (Tracks timing event)
  | .scheduler .prepare => inferInstanceAs (Decidable (if timing.alreadyWaited then
      Remains timing ∧ NotRoundedUp (timing.totalRemainingWaitingTime -
        (timing.measuredWait + timing.decreaseSchedulerSleepingTimeBy)) timing.timeWaitingFactor timing.timeScalingFactor
    else NotRoundedUp (timing.totalRemainingWaitingTime - timing.decreaseSchedulerSleepingTimeBy) 1
      timing.timeScalingFactor))
  | .scheduler (.tryWait _) => inferInstanceAs (Decidable (_ = false → 0 < _ → _))
  | .scheduler (.checkThreads _ _ _) => inferInstanceAs (Decidable (_ = true → _))
  | .scheduler .finishScan | .scheduler .doControllerWait | .scheduler .expire | .scheduler .acknowledge
  | .scheduler .checkFactor | .scheduler .unconditionalWakeup | .scheduler .notifySchedulerForVirtualizedTime
  | .scheduler .notifySchedulerForVirtualizedTimeWakeup | .pass _ | .decreaseSleepingTime _ | .setSchedulerTimeslot _
  | .setTimeScalingFactor _ => .isTrue trivial

/-! ## What a run keeps -/

theorem remainingTime_mul_le {time : Int} {previousTimeWaitingFactor timeWaitingFactor : ℚ} (previous : 0 < previousTimeWaitingFactor)
    (factor : 0 < timeWaitingFactor) (fits : NotRoundedUp time previousTimeWaitingFactor timeWaitingFactor)
    (positive : 0 < remainingTime time previousTimeWaitingFactor timeWaitingFactor) :
    (remainingTime time previousTimeWaitingFactor timeWaitingFactor : ℚ) * timeWaitingFactor ≤
      time * previousTimeWaitingFactor := by
  have quotientPos : 0 < toDouble (toFloat (toFloat time * previousTimeWaitingFactor) / timeWaitingFactor) :=
    truncated_pos positive
  calc (remainingTime time previousTimeWaitingFactor timeWaitingFactor : ℚ) * timeWaitingFactor
      ≤ toDouble (toFloat (toFloat time * previousTimeWaitingFactor) / timeWaitingFactor) * timeWaitingFactor :=
        mul_le_mul_of_nonneg_right (truncated_le quotientPos.le) factor.le
    _ ≤ toFloat (toFloat time * previousTimeWaitingFactor) / timeWaitingFactor * timeWaitingFactor :=
        mul_le_mul_of_nonneg_right fits.quotient factor.le
    _ = toFloat (toFloat time * previousTimeWaitingFactor) := div_mul_cancel₀ _ factor.ne'
    _ ≤ toFloat time * previousTimeWaitingFactor := fits.product
    _ ≤ time * previousTimeWaitingFactor := mul_le_mul_of_nonneg_right fits.float previous.le

/-- At the head of a round. -/
private structure Fresh (timing : Timing) : Prop where
  notWaited : timing.alreadyWaited = false
  nothingWaited : timing.nsecAlreadyWaited = 0
  noFactor : timing.previousTimeWaitingFactor = 1
  whole : timing.totalRemainingWaitingTime = timing.slot
  nothingRequested : timing.requested = 0
  nothingSlept : timing.weighted = 0

/-- What was slept before the last computation and what remains under the factor in force fit into the slot. -/
private structure Budget (timing : Timing) : Prop where
  waited : timing.alreadyWaited = true
  factor : 0 < timing.timeWaitingFactor
  slept : 0 ≤ timing.slept
  inTime : 0 < timing.totalRemainingWaitingTime → timing.slept ≤ timing.totalRemainingWaitingTime
  fits : 0 < timing.totalRemainingWaitingTime →
    timing.weighted + (timing.totalRemainingWaitingTime - timing.slept : Int) * timing.timeWaitingFactor ≤
      (timing.slot - timing.requested : Int)

private structure Accounted (timing : Timing) : Prop where
  positive : 0 ≤ timing.weighted
  bounded : timing.weighted ≤ max 0 ((timing.slot - timing.requested : Int) : ℚ)
  unforced : timing.scheduler.position ≠ .scanned → timing.forceMinimumTimeslotSelection = false
  round : timing.scheduler.position ≠ .scanned →
    timing.scheduler.position = .preparing ∧ Fresh timing ∨ Budget timing
  prepared : timing.scheduler.position = .prepared → 0 < timing.totalRemainingWaitingTime →
    timing.slept = 0 ∧ timing.lastRealTimeTs.time ≤ timing.now ∧ 0 ≤ timing.lastRealTimeTs.tvNsec
  waiting : timing.scheduler.position = .waiting → 0 < timing.totalRemainingWaitingTime ∧
    timing.slept + (timing.ts.time - timing.now) ≤ timing.totalRemainingWaitingTime

section Steps
variable {timing : Timing} {scheduler : Scheduler}

private theorem budget_bounded (budget : Budget timing) (positive : 0 < timing.totalRemainingWaitingTime) :
    timing.weighted ≤ (timing.slot - timing.requested : Int) := by
  have rest : (0 : ℚ) ≤ (timing.totalRemainingWaitingTime - timing.slept : Int) :=
    Int.cast_nonneg (sub_nonneg.mpr (budget.inTime positive))
  have weight := mul_nonneg rest budget.factor.le
  have fits := budget.fits positive
  linarith

/-- Positions and clocks are no part of the account. -/
private theorem fresh_with (fresh : Fresh timing) (scheduler : Scheduler) (now : Int) :
    Fresh { timing with scheduler, now } where
  notWaited := fresh.notWaited
  nothingWaited := fresh.nothingWaited
  noFactor := fresh.noFactor
  whole := fresh.whole
  nothingRequested := fresh.nothingRequested
  nothingSlept := fresh.nothingSlept

private theorem budget_with (budget : Budget timing) (scheduler : Scheduler) (now tp : Int) (lastRealTimeTs ts : Timespec) :
    Budget { timing with scheduler, now, tp, lastRealTimeTs, ts } where
  waited := budget.waited
  factor := budget.factor
  slept := budget.slept
  inTime := budget.inTime
  fits := budget.fits

private theorem budget_of_position (inv : Accounted timing) (called : timing.scheduler.position ≠ .scanned)
    (past : timing.scheduler.position ≠ .preparing) : Budget timing :=
  (inv.round called).resolve_left fun fresh => past fresh.1

private theorem same_accounted (inv : Accounted timing) (same : scheduler.position = timing.scheduler.position) :
    Accounted { timing with scheduler } where
  positive := inv.positive
  bounded := inv.bounded
  unforced called := inv.unforced (same ▸ called)
  round called := (inv.round (same ▸ called)).imp (fun fresh => ⟨same.trans fresh.1,fresh_with fresh.2 _ _⟩)
    fun budget => budget_with budget _ _ _ _ _
  prepared here := inv.prepared (same ▸ here)
  waiting here := inv.waiting (same ▸ here)

/-- A step to where no wait is prepared. -/
private theorem left_accounted (inv : Accounted timing) (called : timing.scheduler.position ≠ .scanned)
    (past : timing.scheduler.position ≠ .preparing) (notPrepared : scheduler.position ≠ .prepared)
    (notWaiting : scheduler.position ≠ .waiting) (ts : Timespec) : Accounted { timing with scheduler, ts } where
  positive := inv.positive
  bounded := inv.bounded
  unforced _ := inv.unforced called
  round _ := .inr (budget_with (budget_of_position inv called past) _ _ _ _ _)
  prepared here := absurd here notPrepared
  waiting here := absurd here notWaiting

private theorem startRound_accounted (nothingWaited : timing.nsecAlreadyWaited = 0)
    (noFactor : timing.previousTimeWaitingFactor = 1) (here : scheduler.position = .preparing) :
    Accounted { timing.startRound with scheduler } where
  positive := le_rfl
  bounded := le_max_left _ _
  unforced _ := rfl
  round _ := .inl ⟨here,⟨rfl,nothingWaited,noFactor,rfl,rfl,rfl⟩⟩
  prepared prepared := by rw [here] at prepared; cases prepared
  waiting waits := by rw [here] at waits; cases waits

private theorem readClock_accounted (positive : 0 ≤ timing.weighted)
    (bounded : timing.weighted ≤ max 0 ((timing.slot - timing.requested : Int) : ℚ))
    (unforced : timing.forceMinimumTimeslotSelection = false) (budget : Budget timing) (still : timing.slept = 0)
    (here : scheduler.position = .prepared) : Accounted { timing.readClock with scheduler } := by
  have notWaiting : scheduler.position ≠ .waiting := by simp [here]
  rw [Timing.readClock]
  split
  · refine ⟨positive,bounded,fun _ => unforced,fun _ => .inr ?_,fun _ _ => ⟨still,?_,?_⟩,fun waits => absurd waits notWaiting⟩
    · exact budget_with budget _ _ _ _ _
    · exact (Timespec.clockGettime_time timing.now).le
    · exact Int.emod_nonneg _ (by decide)
  · next nothing =>
    refine ⟨positive,bounded,fun _ => unforced,fun _ => .inr ?_,fun _ remains => absurd remains nothing,
      fun waits => absurd waits notWaiting⟩
    exact budget_with budget _ _ _ _ _

@[simp] private theorem readClock_total : timing.readClock.totalRemainingWaitingTime = timing.totalRemainingWaitingTime := by
  rw [Timing.readClock]
  split <;> rfl

/-- The first computation of a round gives all of the slot but the reduction away. -/
private theorem prepare_fresh (inv : Accounted timing) (called : timing.scheduler.position = .preparing)
    (fresh : Fresh timing) (factor : 0 < timing.timeScalingFactor) (tracks : Tracks timing (.scheduler .prepare))
    (here : scheduler.position = .prepared) : Accounted { timing.prepare with scheduler } ∧
      timing.prepare.totalRemainingWaitingTime =
        remainingTime (timing.slot - timing.decreaseSchedulerSleepingTimeBy) 1 timing.timeScalingFactor := by
  have unforced : timing.forceMinimumTimeslotSelection = false := inv.unforced (by simp [called])
  have fits : NotRoundedUp (timing.slot - timing.decreaseSchedulerSleepingTimeBy) 1 timing.timeScalingFactor := by
    simpa [Tracks,fresh.notWaited,fresh.whole] using tracks
  have measured : timing.measure = timing := if_neg (by simp [fresh.notWaited])
  have remaining : timing.takeReduction.selectRemaining.totalRemainingWaitingTime =
      remainingTime (timing.slot - timing.decreaseSchedulerSleepingTimeBy) 1 timing.timeScalingFactor := by
    simp [Timing.selectRemaining,Timing.takeReduction,unforced,fresh.whole,fresh.nothingWaited,fresh.noFactor]
  have nothing : timing.takeReduction.selectRemaining.weighted = 0 := fresh.nothingSlept
  have requested : timing.takeReduction.selectRemaining.requested = timing.decreaseSchedulerSleepingTimeBy := by
    simp [Timing.selectRemaining,Timing.takeReduction,fresh.nothingRequested]
  have budget : Budget timing.takeReduction.selectRemaining := by
    refine ⟨rfl,factor,le_rfl,fun positive => positive.le,fun positive => ?_⟩
    have shares := remainingTime_mul_le one_pos factor fits (remaining ▸ positive)
    rw [nothing,remaining,requested]
    simpa [Timing.selectRemaining,Timing.takeReduction] using shares
  rw [Timing.prepare,measured]
  refine ⟨readClock_accounted nothing.ge ?_ unforced budget rfl here,readClock_total.trans remaining⟩
  rw [nothing]
  exact le_max_left _ _

/-- A later computation converts what is left, less what was measured and reduced. -/
private theorem prepare_again (inv : Accounted timing) (called : timing.scheduler.position = .preparing)
    (budget : Budget timing) (factor : 0 < timing.timeScalingFactor) (tracks : Tracks timing (.scheduler .prepare))
    (here : scheduler.position = .prepared) : Accounted { timing.prepare with scheduler } := by
  have unforced : timing.forceMinimumTimeslotSelection = false := inv.unforced (by simp [called])
  obtain ⟨remains,fits⟩ : Remains timing ∧ NotRoundedUp (timing.totalRemainingWaitingTime -
      (timing.measuredWait + timing.decreaseSchedulerSleepingTimeBy)) timing.timeWaitingFactor timing.timeScalingFactor := by
    simpa [Tracks,budget.waited] using tracks
  let again : Timing :=
    { timing with nsecAlreadyWaited := timing.measuredWait, previousTimeWaitingFactor := timing.timeWaitingFactor }
  have measured : timing.measure = again := if_pos budget.waited
  have remaining : again.takeReduction.selectRemaining.totalRemainingWaitingTime =
      remainingTime (timing.totalRemainingWaitingTime - (timing.measuredWait + timing.decreaseSchedulerSleepingTimeBy))
        timing.timeWaitingFactor timing.timeScalingFactor := by
    simp [again,Timing.selectRemaining,Timing.takeReduction,unforced]
  have bounded : timing.weighted ≤
      max 0 ((timing.slot - (timing.requested + timing.decreaseSchedulerSleepingTimeBy) : Int) : ℚ) := by
    rcases remains.left with nothing | left
    · exact nothing.le.trans (le_max_left _ _)
    · refine le_max_of_le_right ?_
      push_cast at left ⊢
      linarith
  have later : Budget again.takeReduction.selectRemaining := by
    refine ⟨rfl,factor,le_rfl,fun positive => positive.le,fun positive => ?_⟩
    have shares := remainingTime_mul_le budget.factor factor fits (remaining ▸ positive)
    rw [← remaining] at shares
    have converted : 0 < (again.takeReduction.selectRemaining.totalRemainingWaitingTime : ℚ) * timing.timeScalingFactor :=
      mul_pos (Int.cast_pos.mpr positive) factor
    have rest : 0 < timing.totalRemainingWaitingTime -
        (timing.measuredWait + timing.decreaseSchedulerSleepingTimeBy) := by
      have product := converted.trans_le shares
      exact_mod_cast (pos_iff_pos_of_mul_pos product).mpr budget.factor
    have remained : 0 < timing.totalRemainingWaitingTime := by
      have notNegative := budget.slept.trans remains.measured
      rcases remains.nothingAdded with remained | reduced <;> omega
    have before := budget.fits remained
    have counted := mul_le_mul_of_nonneg_right (Int.cast_le.mpr remains.measured : (timing.slept : ℚ) ≤ timing.measuredWait)
      budget.factor.le
    have scaled := remains.scaled
    change timing.weighted + ((again.takeReduction.selectRemaining.totalRemainingWaitingTime - 0 : Int) : ℚ) *
      timing.timeScalingFactor ≤ ((timing.slot - (timing.requested + timing.decreaseSchedulerSleepingTimeBy) : Int) : ℚ)
    push_cast at before shares ⊢
    linarith
  rw [Timing.prepare,measured]
  exact readClock_accounted inv.positive bounded unforced later rfl here

private theorem tryWait_accounted (inv : Accounted timing) (called : timing.scheduler.position = .prepared)
    (positive : 0 < timing.totalRemainingWaitingTime) (here : scheduler.position = .waiting) :
    Accounted { timing.setDeadline with scheduler } := by
  obtain ⟨still,read,-⟩ := inv.prepared called positive
  have deadline : timing.setDeadline.ts.time = timing.lastRealTimeTs.time + timing.totalRemainingWaitingTime := by
    rw [Timing.setDeadline,if_pos positive,Timespec.carried_time]
    simp only [Timespec.time]
    ring
  have budget := budget_of_position inv (by simp [called]) (by simp [called])
  rw [Timing.setDeadline,if_pos positive] at deadline ⊢
  refine ⟨inv.positive,inv.bounded,fun _ => inv.unforced (by simp [called]),fun _ => .inr ?_,
    fun prepared => by simp [here] at prepared,fun _ => ⟨positive,?_⟩⟩
  · exact budget_with budget _ _ _ _ _
  · simp only [still,deadline]
    omega

private theorem pass_accounted (inv : Accounted timing) {nanoseconds : ℕ} (canPass : timing.CanPass nanoseconds) :
    Accounted (timing.pass nanoseconds) := by
  rw [Timing.pass]
  split
  · next waits =>
    obtain ⟨positive,untilDeadline⟩ := inv.waiting waits
    have inTime := (canPass waits).2
    have budget := budget_of_position inv (by simp [waits]) (by simp [waits])
    have later : Budget { timing with
        now := timing.now + nanoseconds
        slept := timing.slept + nanoseconds
        weighted := timing.weighted + nanoseconds * timing.timeWaitingFactor } := by
      have slept := budget.slept
      refine ⟨budget.waited,budget.factor,by simp only; omega,fun _ => by simp only; omega,fun _ => ?_⟩
      have fits := budget.fits positive
      push_cast at fits ⊢
      linarith
    have weight := mul_nonneg (Nat.cast_nonneg nanoseconds : (0 : ℚ) ≤ nanoseconds) budget.factor.le
    refine ⟨add_nonneg inv.positive weight,le_max_of_le_right (budget_bounded later positive),inv.unforced,
      fun _ => .inr later,fun prepared => ?_,fun _ => ⟨positive,?_⟩⟩
    · simp [waits] at prepared
    · simp only
      omega
  · next awake =>
    refine ⟨inv.positive,inv.bounded,inv.unforced,fun called => ?_,fun prepared remains => ?_,fun waits => absurd waits awake⟩
    · exact (inv.round called).imp (fun fresh => ⟨fresh.1,fresh_with fresh.2 _ _⟩) fun budget => budget_with budget _ _ _ _ _
    · obtain ⟨still,read,nonneg⟩ := inv.prepared prepared remains
      exact ⟨still,by simp only; omega,nonneg⟩

private theorem wakeup_accounted (inv : Accounted timing) (same : scheduler.position = timing.scheduler.position) :
    Accounted { timing with scheduler := scheduler.unconditionalWakeup } := by
  by_cases waits : scheduler.position = .waiting
  · rw [Scheduler.unconditionalWakeup,if_pos waits]
    split
    · rw [same] at waits
      exact left_accounted inv (by simp [waits]) (by simp [waits]) (by simp) (by simp) timing.ts
    · exact same_accounted inv same
  · exact same_accounted inv ((Scheduler.unconditionalWakeup_position waits).trans same)

private theorem scheduler_accounted (inv : Accounted timing) {event : ControllerWait.Event}
    (tracks : Tracks timing (.scheduler event)) (asserted : timing.asserts event = true)
    (stepped : ControllerWait.step timing.scheduler event = some scheduler) :
    Accounted { timing.perform event with scheduler } := by
  cases event with
  | doControllerWait =>
    simp only [ControllerWait.step,Option.ite_none_right_eq_some,Option.some.injEq] at stepped
    obtain ⟨-,rfl⟩ := stepped
    exact startRound_accounted rfl rfl rfl
  | prepare =>
    simp only [ControllerWait.step,Option.ite_none_right_eq_some,Option.some.injEq] at stepped
    obtain ⟨called,rfl⟩ := stepped
    have factor : 0 < timing.timeScalingFactor := of_decide_eq_true asserted
    rcases inv.round (by simp [called]) with ⟨-,fresh⟩ | budget
    · exact (prepare_fresh inv called fresh factor tracks rfl).1
    · exact prepare_again inv called budget factor tracks rfl
  | tryWait remaining =>
    simp only [ControllerWait.step,Option.ite_none_right_eq_some] at stepped
    obtain ⟨called,result⟩ := stepped
    obtain rfl : remaining = timing.totalRemainingWaitingTime := of_decide_eq_true asserted
    split at result
    · next positive =>
      rw [Scheduler.timedWait] at result
      split at result
      · cases result
        rw [Timing.perform,Timing.setDeadline,if_pos positive]
        exact left_accounted inv (by simp [called]) (by simp [called]) (by simp) (by simp) _
      · cases result
        exact tryWait_accounted inv called positive rfl
    · next nothing =>
      cases result
      rw [Timing.perform,Timing.setDeadline,if_neg nothing]
      exact left_accounted inv (by simp [called]) (by simp [called]) (by simp) (by simp) timing.ts
  | checkThreads runnableThreadsEmpty runningThreadNull freeze =>
    simp only [ControllerWait.step,Option.ite_none_right_eq_some,Option.some.injEq] at stepped
    obtain ⟨called,rfl⟩ := stepped
    rw [Timing.perform]
    cases again : noThreadsToSchedule runnableThreadsEmpty runningThreadNull freeze with
    | true =>
      obtain ⟨nothingWaited,noFactor⟩ := tracks again
      exact startRound_accounted nothingWaited noFactor rfl
    | false => exact left_accounted inv (by simp [called]) (by simp [called]) (by simp) (by simp) timing.ts
  | checkFactor =>
    simp only [ControllerWait.step,Option.ite_none_right_eq_some,Option.some.injEq] at stepped
    obtain ⟨called,rfl⟩ := stepped
    refine left_accounted inv (by simp [called]) (by simp [called]) ?_ ?_ timing.ts <;> (simp only; split <;> simp)
  | finishScan | expire | acknowledge =>
    simp only [ControllerWait.step,Option.ite_none_right_eq_some,Option.some.injEq] at stepped
    obtain ⟨called,rfl⟩ := stepped
    exact left_accounted inv (by simp [called]) (by simp [called]) (by simp) (by simp) timing.ts
  | unconditionalWakeup =>
    cases stepped
    exact wakeup_accounted inv rfl
  | notifySchedulerForVirtualizedTime =>
    cases stepped
    exact same_accounted inv rfl
  | notifySchedulerForVirtualizedTimeWakeup =>
    simp only [ControllerWait.step,Option.ite_none_right_eq_some,Option.some.injEq] at stepped
    obtain ⟨-,rfl⟩ := stepped
    exact wakeup_accounted inv rfl

/-- What other threads set is no part of the account either. -/
private theorem requested_accounted (inv : Accounted timing) (schedulerTimeslot decreaseSchedulerSleepingTimeBy : Int)
    (timeScalingFactor : ℚ) :
    Accounted { timing with schedulerTimeslot, decreaseSchedulerSleepingTimeBy, timeScalingFactor } where
  positive := inv.positive
  bounded := inv.bounded
  unforced := inv.unforced
  round called := (inv.round called).imp
    (fun fresh => ⟨fresh.1,fresh.2.notWaited,fresh.2.nothingWaited,fresh.2.noFactor,fresh.2.whole,
      fresh.2.nothingRequested,fresh.2.nothingSlept⟩)
    fun budget => ⟨budget.waited,budget.factor,budget.slept,budget.inTime,budget.fits⟩
  prepared := inv.prepared
  waiting := inv.waiting

private theorem step_accounted (timing : Timing) (event : Event) (next : Timing) (inv : Accounted timing)
    (tracks : Tracks timing event) (stepped : step timing event = some next) : Accounted next := by
  cases event with
  | scheduler event =>
    simp only [step,Option.ite_none_right_eq_some,Option.map_eq_some_iff] at stepped
    obtain ⟨asserted,scheduler,moved,rfl⟩ := stepped
    exact scheduler_accounted inv tracks asserted moved
  | pass nanoseconds =>
    simp only [step,Option.ite_none_right_eq_some,Option.some.injEq] at stepped
    obtain ⟨canPass,rfl⟩ := stepped
    exact pass_accounted inv canPass
  | decreaseSleepingTime time =>
    cases stepped
    exact requested_accounted inv _ _ _
  | setSchedulerTimeslot timeslot =>
    cases stepped
    split
    · exact requested_accounted inv _ _ _
    · exact inv
  | setTimeScalingFactor factor =>
    cases stepped
    exact requested_accounted inv _ _ _

/-- A wait is entered where the deadline has just been set. -/
private theorem enters_wait {event : Event} {next : Timing} (stepped : step timing event = some next)
    (awake : timing.scheduler.position ≠ .waiting) (waits : next.scheduler.position = .waiting) :
    (∃ remaining, event = .scheduler (.tryWait remaining)) ∧ timing.scheduler.position = .prepared ∧
      timing.scheduler.schedulerWaitingForTimeslotExpiry = false ∧ 0 < timing.totalRemainingWaitingTime ∧
      next.ts = timing.setDeadline.ts := by
  cases event with
  | scheduler event =>
    simp only [step,Option.ite_none_right_eq_some,Option.map_eq_some_iff] at stepped
    obtain ⟨asserted,scheduler,moved,rfl⟩ := stepped
    have wakes : ∀ scheduler : Scheduler, scheduler.position ≠ .waiting →
        scheduler.unconditionalWakeup.position ≠ .waiting := by
      intro scheduler awake
      rwa [Scheduler.unconditionalWakeup_position awake]
    cases event with
    | tryWait remaining =>
      simp only [ControllerWait.step,Option.ite_none_right_eq_some] at moved
      obtain ⟨called,result⟩ := moved
      obtain rfl : remaining = timing.totalRemainingWaitingTime := of_decide_eq_true asserted
      split at result
      · next positive =>
        rw [Scheduler.timedWait] at result
        split at result
        · cases result
          cases waits
        · next notified => exact ⟨⟨_,rfl⟩,called,Bool.not_eq_true _ ▸ notified,positive,rfl⟩
      · cases result
        cases waits
    | unconditionalWakeup =>
      cases moved
      exact absurd waits (wakes _ awake)
    | notifySchedulerForVirtualizedTime =>
      cases moved
      exact absurd waits awake
    | notifySchedulerForVirtualizedTimeWakeup =>
      simp only [ControllerWait.step,Option.ite_none_right_eq_some,Option.some.injEq] at moved
      obtain ⟨-,rfl⟩ := moved
      exact absurd waits (wakes _ awake)
    | checkFactor | checkThreads _ _ _ =>
      simp only [ControllerWait.step,Option.ite_none_right_eq_some,Option.some.injEq] at moved
      obtain ⟨-,rfl⟩ := moved
      simp only at waits
      split at waits <;> cases waits
    | finishScan | doControllerWait | prepare | expire | acknowledge =>
      simp only [ControllerWait.step,Option.ite_none_right_eq_some,Option.some.injEq] at moved
      obtain ⟨-,rfl⟩ := moved
      cases waits
  | pass nanoseconds =>
    simp only [step,Option.ite_none_right_eq_some,Option.some.injEq] at stepped
    obtain ⟨-,rfl⟩ := stepped
    rw [Timing.pass,if_neg awake] at waits
    exact absurd waits awake
  | decreaseSleepingTime _ | setTimeScalingFactor _ =>
    cases stepped
    exact absurd waits awake
  | setSchedulerTimeslot timeslot =>
    cases stepped
    split at waits <;> exact absurd waits awake

private theorem accounts_of_accounted (timing : Timing) (event : Event) (inv : Accounted timing)
    (tracks : Tracks timing event) : Accounts timing event := by
  refine ⟨?_,fun next stepped => (step_accounted timing event next inv tracks stepped).bounded,?_⟩
  · rintro rfl notWaited next stepped
    simp only [step,Option.mem_def,Option.ite_none_right_eq_some,Option.map_eq_some_iff] at stepped
    obtain ⟨asserted,scheduler,moved,rfl⟩ := stepped
    simp only [ControllerWait.step,Option.ite_none_right_eq_some,Option.some.injEq] at moved
    obtain ⟨called,rfl⟩ := moved
    rcases inv.round (by simp [called]) with ⟨-,fresh⟩ | budget
    · exact (@prepare_fresh timing { timing.scheduler with position := .prepared } inv called fresh
        (of_decide_eq_true asserted) tracks rfl).2
    · rw [budget.waited] at notWaited
      cases notWaited
  · intro next stepped awake waits
    obtain ⟨⟨remaining,rfl⟩,called,unnotified,positive,deadline⟩ := enters_wait stepped awake waits
    obtain ⟨-,-,nonneg⟩ := inv.prepared called positive
    rw [deadline,Timing.setDeadline,if_pos positive]
    exact Timespec.carried_isNormalised (add_pos_of_nonneg_of_pos nonneg positive) (tracks unnotified positive)

end Steps

/-- In every run whose steps meet the condition, each round starts from the full time slot, what is slept stays
    within the slot less the reductions, and each wait gets a normalised deadline. -/
theorem slot_accounted (start : Start) (events : List Event) (tracks : Runs.Meets step Tracks (initial start) events) :
    Runs.Meets step Accounts (initial start) events :=
  Runs.meets_of_invariant step_accounted accounts_of_accounted
    { positive := le_rfl
      bounded := le_max_left _ _
      unforced := fun called => absurd rfl called
      round := fun called => absurd rfl called
      prepared := fun prepared => by cases prepared
      waiting := fun waits => by cases waits } tracks

/-- The first wait is interrupted by a factor of 2 and a reduction of 0.3 ms, the second one, for half of what is left,
    by a wake-up. -/
def twoWaits : List Event :=
  [.scheduler .doControllerWait,.scheduler .prepare,.scheduler (.tryWait 2000000),.pass 500000,
    .setTimeScalingFactor 2,.decreaseSleepingTime 300000,.scheduler .notifySchedulerForVirtualizedTime,
    .scheduler .notifySchedulerForVirtualizedTimeWakeup,.scheduler .acknowledge,.scheduler .checkFactor,
    .scheduler .prepare,.scheduler (.tryWait 600000),.pass 200000,.scheduler .unconditionalWakeup,
    .scheduler .acknowledge,.scheduler .checkFactor,.scheduler (.checkThreads false false 0)]

theorem two_waits_accounted :
    (∃ last, Runs.run step (initial ⟨0,2000000,0,false,1,false,0,⟨0,0⟩⟩) twoWaits = some last ∧
      last.weighted = 900000 ∧ last.slot - last.requested = 1700000) ∧
    Runs.Meets step Accounts (initial ⟨0,2000000,0,false,1,false,0,⟨0,0⟩⟩) twoWaits := by
  refine ⟨?_,slot_accounted _ _ (by decide +kernel)⟩
  have checked : (Runs.run step (initial ⟨0,2000000,0,false,1,false,0,⟨0,0⟩⟩) twoWaits).any
      (fun last => decide (last.weighted = 900000 ∧ last.slot - last.requested = 1700000)) = true := by decide +kernel
  obtain ⟨last,executed,found⟩ := Runs.exists_of_checked checked
  exact ⟨last,executed,of_decide_eq_true found⟩

/-! ## One round and its repetition -/

/-- Integers of 24 bits keep their value through all conversions. -/
private theorem toFloat_of_small {time : Int} (small : time.natAbs < 2 ^ 24) :
    toFloat time = time ∧ toDouble time = time :=
  ⟨rounded_intCast small,rounded_intCast (small.trans (by norm_num))⟩

private theorem remainingTime_of_small {time : Int} (small : time.natAbs < 2 ^ 24) : remainingTime time 1 1 = time := by
  obtain ⟨float,double⟩ := toFloat_of_small small
  rw [remainingTime,float,mul_one,float,div_one,double,truncated_intCast]

@[simp] private theorem measure_total (timing : Timing) :
    timing.measure.totalRemainingWaitingTime = timing.totalRemainingWaitingTime := by
  rw [Timing.measure]
  split <;> rfl

/-- A computation without scaling. -/
private theorem prepare_of_small {timing : Timing} (unforced : timing.measure.forceMinimumTimeslotSelection = false)
    (scaling : timing.measure.timeScalingFactor = 1) (previous : timing.measure.previousTimeWaitingFactor = 1)
    {remaining : Int} (remains : timing.totalRemainingWaitingTime - (timing.measure.nsecAlreadyWaited +
      timing.measure.decreaseSchedulerSleepingTimeBy) = remaining) (positive : 0 < remaining)
    (small : remaining.natAbs < 2 ^ 24) : timing.prepare =
      { timing.measure.takeReduction with
        totalRemainingWaitingTime := remaining
        lastRealTimeTs := .clockGettime timing.measure.now
        tp := timing.measure.now / 1000 } := by
  have selected : timing.measure.takeReduction.selectRemaining =
      { timing.measure.takeReduction with totalRemainingWaitingTime := remaining } := by
    simp [Timing.selectRemaining,Timing.takeReduction,unforced,scaling,previous,remains,remainingTime_of_small small]
  rw [Timing.prepare,selected,Timing.readClock,if_pos positive]
  rfl

/-- A slot of 2 ms and no scaling. -/
private def startAt (now decreaseSchedulerSleepingTimeBy : Int) : Start :=
  ⟨now,2000000,decreaseSchedulerSleepingTimeBy,false,1,false,0,⟨0,0⟩⟩

/-- The call up to its first wait. -/
private def callToWait : List Event := [.scheduler .doControllerWait,.scheduler .prepare]

/-- The state that this leads to. -/
private def firstWait (now decreaseSchedulerSleepingTimeBy remaining : Int) : Timing where
  scheduler := ⟨.prepared,false,false,0⟩
  now := now
  schedulerTimeslot := 2000000
  decreaseSchedulerSleepingTimeBy := 0
  forceMinimumTimeslotSelection := false
  timeScalingFactor := 1
  totalRemainingWaitingTime := remaining
  nsecAlreadyWaited := decreaseSchedulerSleepingTimeBy
  timeWaitingFactor := 1
  previousTimeWaitingFactor := 1
  alreadyWaited := true
  tp := now / 1000
  lastRealTimeTs := .clockGettime now
  ts := ⟨0,0⟩
  slot := 2000000
  requested := decreaseSchedulerSleepingTimeBy
  slept := 0
  weighted := 0

private theorem run_firstWait (now decreaseSchedulerSleepingTimeBy remaining : Int)
    (remains : 2000000 - decreaseSchedulerSleepingTimeBy = remaining) (positive : 0 < remaining)
    (small : remaining.natAbs < 2 ^ 24) :
    Runs.run step (initial (startAt now decreaseSchedulerSleepingTimeBy)) callToWait =
      some (firstWait now decreaseSchedulerSleepingTimeBy remaining) := by
  let called : Timing :=
    { (initial (startAt now decreaseSchedulerSleepingTimeBy)).startRound with scheduler := ⟨.preparing,false,false,0⟩ }
  have computed := @prepare_of_small called rfl rfl rfl remaining
    ((congrArg (2000000 - ·) (zero_add decreaseSchedulerSleepingTimeBy)).trans remains) positive small
  have prepared : step called (.scheduler .prepare) = some { called.prepare with scheduler := ⟨.prepared,false,false,0⟩ } := rfl
  refine (Runs.run_cons _ _ _ _).mpr ⟨called,rfl,(Runs.run_cons _ _ _ _).mpr ⟨_,prepared,?_⟩⟩
  rw [computed]
  simp [called,Timing.measure,Timing.takeReduction,Timing.startRound,initial,startAt,firstWait]

private theorem carried_of_le {ts : Timespec} (small : ts.tvNsec ≤ 1000000000) : ts.carried = ts := by
  rw [Timespec.carried,if_neg (not_lt.mpr small)]

/-- The wait ends and there is no thread to schedule. -/
private def noThreads : List Event := [.scheduler (.tryWait 500000),.scheduler .expire,.scheduler .acknowledge,
  .scheduler .checkFactor,.scheduler (.checkThreads true true 0)]

/-- A reduction of 1.5 ms is taken from the repeated round as well. -/
private theorem reduction_taken_again : ¬ Runs.Meets step StartsFromSlot (initial (startAt 0 1500000))
    (callToWait ++ (noThreads ++ [.scheduler .prepare])) := by
  intro meets
  have waited := Runs.meets_of_append meets (run_firstWait 0 1500000 500000 (by decide) (by decide) (by decide))
  let repeated : Timing :=
    { (firstWait 0 1500000 500000).setDeadline.startRound with scheduler := ⟨.preparing,false,false,0⟩ }
  have executed : Runs.run step (firstWait 0 1500000 500000) noThreads = some repeated := rfl
  have full := (Runs.meets_of_append waited executed).1 rfl rfl _ rfl
  have computed := @prepare_of_small repeated rfl rfl rfl 500000 rfl (by decide) (by decide)
  have whole : repeated.prepare.totalRemainingWaitingTime = remainingTime 2000000 1 1 := full
  rw [computed,remainingTime_of_small (by decide)] at whole
  exact absurd whole (by decide)

/-- From 0.9995 s on, a wait of 0.5 ms gets the deadline 0 s and 1000000000 ns. -/
private theorem whole_second_passed : ¬ Runs.Meets step PassesNormalisedDeadline (initial (startAt 999500000 1500000))
    (callToWait ++ noThreads) := by
  intro meets
  have waited := Runs.meets_of_append meets (run_firstWait 999500000 1500000 500000 (by decide) (by decide) (by decide))
  have normalised := waited.1 _ rfl (by decide) rfl
  have deadline : Timespec.IsNormalised (Timespec.carried ⟨0,1000000000⟩) := normalised
  rw [carried_of_le (by decide)] at deadline
  exact absurd deadline (by decide)

/-- A timed wait and some time in it. -/
private def sleep (remaining : Int) (nanoseconds : ℕ) : List Event := [.scheduler (.tryWait remaining),.pass nanoseconds]

private theorem run_sleep {timing : Timing} {nanoseconds : ℕ} (here : timing.scheduler.position = .prepared)
    (unnotified : timing.scheduler.schedulerWaitingForTimeslotExpiry = false)
    (positive : 0 < timing.totalRemainingWaitingTime)
    (normalised : (⟨timing.lastRealTimeTs.tvSec,
      timing.lastRealTimeTs.tvNsec + timing.totalRemainingWaitingTime⟩ : Timespec).IsNormalised)
    (inTime : timing.now + nanoseconds ≤ timing.lastRealTimeTs.time + timing.totalRemainingWaitingTime) :
    Runs.run step timing (sleep timing.totalRemainingWaitingTime nanoseconds) =
      some { timing with
        scheduler := { timing.scheduler with schedulerWaitingForTimeslotExpiry := true, position := .waiting }
        ts := ⟨timing.lastRealTimeTs.tvSec,timing.lastRealTimeTs.tvNsec + timing.totalRemainingWaitingTime⟩
        now := timing.now + nanoseconds
        slept := timing.slept + nanoseconds
        weighted := timing.weighted + nanoseconds * timing.timeWaitingFactor } := by
  let deadline : Timespec :=
    ⟨timing.lastRealTimeTs.tvSec,timing.lastRealTimeTs.tvNsec + timing.totalRemainingWaitingTime⟩
  let waiting : Timing :=
    { timing with
      scheduler := { timing.scheduler with schedulerWaitingForTimeslotExpiry := true, position := .waiting }
      ts := deadline }
  have carried : deadline.carried = deadline := carried_of_le normalised.2.le
  have control : ControllerWait.step timing.scheduler (.tryWait timing.totalRemainingWaitingTime) = some waiting.scheduler := by
    simp [ControllerWait.step,here,positive,Scheduler.timedWait,unnotified,waiting]
  have data : timing.setDeadline = { timing with ts := deadline } :=
    (if_pos positive).trans (congrArg (fun ts => { timing with ts }) carried)
  have asserted : timing.asserts (.tryWait timing.totalRemainingWaitingTime) = true := decide_eq_true rfl
  have tried : step timing (.scheduler (.tryWait timing.totalRemainingWaitingTime)) = some waiting := by
    simp only [step,asserted,if_true,control,Option.map_some,Timing.perform,data]
    rfl
  have until' : waiting.CanPass nanoseconds := by
    refine fun _ => ⟨normalised,inTime.trans_eq ?_⟩
    simp only [waiting,deadline,Timespec.time]
    ring
  have passed : step waiting (.pass nanoseconds) = some (waiting.pass nanoseconds) := if_pos until'
  refine (Runs.run_cons _ _ _ _).mpr ⟨waiting,tried,(Runs.run_cons _ _ _ _).mpr ⟨_,passed,?_⟩⟩
  rw [Timing.pass,if_pos rfl]
  rfl

/-- A thread reports a change of the factor to the waiting scheduler. -/
private def factorChange : List Event := [.scheduler .notifySchedulerForVirtualizedTime,
  .scheduler .notifySchedulerForVirtualizedTimeWakeup,.scheduler .acknowledge,.scheduler .checkFactor]

/-- Of a wait of 999 ns nothing is measured, so that the wait after it is for the full slot again. -/
private theorem slept_past_slot : ¬ Runs.Meets step SleepsWithinSlot (initial (startAt 0 0))
    (callToWait ++ (sleep 2000000 999 ++ (factorChange ++ (.scheduler .prepare :: sleep 2000000 2000000)))) := by
  intro meets
  let again : Timing :=
    { firstWait 0 0 2000000 with
      scheduler := ⟨.preparing,false,true,0⟩
      ts := ⟨0,2000000⟩
      now := 999
      slept := 999
      weighted := 0 + (999 : ℕ) * 1 }
  have waited := Runs.meets_of_append meets (run_firstWait 0 0 2000000 (by decide) (by decide) (by decide))
  have slept := Runs.meets_of_append waited (@run_sleep (firstWait 0 0 2000000) 999 rfl rfl (by decide) (by decide) (by decide))
  have changed := Runs.meets_of_append slept (rfl : Runs.run step _ factorChange = some again)
  have measured : again.measuredWait = 0 := by
    have nothing : toDouble ((1000 * (again.now / 1000 - again.tp) : Int) : ℚ) = 0 := by
      have zero : 1000 * (again.now / 1000 - again.tp) = 0 := by decide
      rw [zero,Int.cast_zero]
      exact rounded_zero 53
    rw [Timing.measuredWait,nothing]
    exact truncated_intCast 0
  have computed := @prepare_of_small again rfl rfl rfl 2000000
    ((congrArg (fun waited : Int => 2000000 - (waited + 0)) measured).trans (by decide)) (by decide) (by decide)
  have prepared := changed.2 { again.prepare with scheduler := ⟨.prepared,false,false,0⟩ } rfl
  rw [computed] at prepared
  let second : Timing :=
    { again.measure.takeReduction with
      totalRemainingWaitingTime := 2000000
      lastRealTimeTs := .clockGettime 999
      tp := 0
      scheduler := ⟨.prepared,false,false,0⟩ }
  obtain ⟨waiting,tried,rest⟩ := (Runs.run_cons _ _ _ _).mp
    (@run_sleep second 2000000 rfl rfl (by decide) (by decide) (by decide))
  obtain ⟨last,passed,ended⟩ := (Runs.run_cons _ _ _ _).mp rest
  have within := (prepared.2 waiting tried).1 last passed
  cases ended
  have numbers : (0 + (999 : ℕ) * 1 + (2000000 : ℕ) * 1 : ℚ) ≤ max 0 ((2000000 - (0 + 0) : Int) : ℚ) := within
  norm_num at numbers

/-- None of the three parts holds of every run. -/
theorem slot_not_accounted :
    (¬ ∀ (start : Start) (events : List Event), Runs.Meets step StartsFromSlot (initial start) events) ∧
    (¬ ∀ (start : Start) (events : List Event), Runs.Meets step SleepsWithinSlot (initial start) events) ∧
    ¬ ∀ (start : Start) (events : List Event), Runs.Meets step PassesNormalisedDeadline (initial start) events :=
  ⟨fun claimed => reduction_taken_again (claimed _ _),fun claimed => slept_past_slot (claimed _ _),
    fun claimed => whole_second_passed (claimed _ _)⟩

end Vexjine.SlotAccounting
