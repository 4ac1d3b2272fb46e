import Mathlib.Data.List.DropRight
import Mathlib.Tactic
import Vexjine.Areas

/-!
# Time-averaged measures

A measure of the simulated system adds up a value over the simulated time. The area under the value is
added when the value changes; a reset clears the areas, and leaves the time of the last change. Times
and values are exact.
-/

namespace Vexjine.SystemMeasures
open StepFunctions

structure SystemMeasure where
  moments : ℤ
  n : ℕ
  moment : ℕ → ℚ
  resetTime : ℚ
  lastChange : ℚ
  current : ℚ

/-- The two constructors. `Measure(int)` leaves in the array what the memory held. -/
inductive Construction where
  | default
  | moments (m : ℤ) (memory : ℕ → ℚ)

def Construction.memory : Construction → ℕ → ℚ
  | .default => fun _ => 0
  | .moments _ memory => memory

def maxMeasures : ℤ := 10

def Construction.measure (construction : Construction) : SystemMeasure where
  moments := match construction with
    | .default => 2
    | .moments m _ => if maxMeasures < m then maxMeasures else if m < 2 then 2 else m
  n := 0
  moment := construction.memory
  resetTime := 0
  lastChange := 0
  current := 0

namespace SystemMeasure

variable (measure : SystemMeasure) (now : ℚ)

def add (x : ℚ) : SystemMeasure :=
  { measure with
    moment := fun i => if 1 ≤ i ∧ (i : ℤ) ≤ measure.moments
      then measure.moment i + measure.current ^ i * (now - measure.lastChange) else measure.moment i
    current := x
    lastChange := now
    n := measure.n + 1 }

def resetMeasures : SystemMeasure :=
  { measure with
    resetTime := now
    n := 0
    moment := fun i => if 1 ≤ i ∧ (i : ℤ) ≤ measure.moments then 0 else measure.moment i }

/-- A division by 0 gives no number. -/
def mean : Option ℚ :=
  if now - measure.resetTime = 0 then none else some (measure.moment 1 / (now - measure.resetTime))

end SystemMeasure

/-- What is done with a measure, and when. -/
inductive Event where
  | add (now x : ℚ)
  | resetMeasures (now : ℚ)
  | mean (now : ℚ)
  deriving DecidableEq

namespace Event

def now : Event → ℚ
  | .add now _ => now
  | .resetMeasures now => now
  | .mean now => now

def change : Event → Option (ℚ × ℚ)
  | .add now x => some (now,x)
  | _ => none

def reset : Event → Option ℚ
  | .resetMeasures now => some now
  | _ => none

end Event

def SystemMeasure.step (measure : SystemMeasure) : Event → SystemMeasure
  | .add now x => measure.add now x
  | .resetMeasures now => measure.resetMeasures now
  | .mean _ => measure

def recorded (construction : Construction) (events : List Event) : SystemMeasure :=
  events.foldl SystemMeasure.step construction.measure

/-- The simulated time starts at 0 and does not go back. -/
def Ordered (events : List Event) (now : ℚ) : Prop := (0 :: events.map Event.now ++ [now]).Pairwise (· ≤ ·)

instance (events : List Event) (now : ℚ) : Decidable (Ordered events now) :=
  inferInstanceAs (Decidable (List.Pairwise _ _))

/-! ## What the mean is for -/

/-- The recorded changes, the newest first. -/
def changes (events : List Event) : List (ℚ × ℚ) := (events.filterMap Event.change).reverse

def lastReset (events : List Event) : ℚ := ((events.filterMap Event.reset).reverse).headD 0

/-- The step function that the changes define. -/
noncomputable def signal (events : List Event) : ℝ → ℝ :=
  valueAt ((changes events).map fun change => ((change.1 : ℝ),(change.2 : ℝ)))

/-- The average of the step function from the last reset on; there is none over no time. -/
noncomputable def timeAverage (events : List Event) (now : ℚ) : Option ℝ :=
  if now = lastReset events then none
  else some ((∫ moment in (lastReset events : ℝ)..now, signal events moment) / (now - lastReset events))

/-! ## What is counted twice and what is left out -/

def untilReset (events : List Event) : List Event := events.rdropWhile fun event => event.reset.isNone

def sinceReset (events : List Event) : List Event := events.rtakeWhile fun event => event.reset.isNone

/-- The area that the mean has although it lies before the last reset: the first change behind a reset
    adds the old value since the change before the reset. Without a reset it is what the memory held. -/
def carried (construction : Construction) (events : List Event) : ℚ :=
  if untilReset events = [] then construction.memory 1
  else if changes (sinceReset events) = [] then 0
  else (last (changes (untilReset events))).2 *
    (lastReset events - (last (changes (untilReset events))).1)

/-- The area that the mean does not have yet: what came behind the last change. -/
def pending (events : List Event) (now : ℚ) : ℚ :=
  (last (changes events)).2 * (now - max (lastReset events) (last (changes events)).1)

/-- The two areas are the same, or no time has passed since the reset. -/
def Balanced (construction : Construction) (events : List Event) (now : ℚ) : Prop :=
  now = lastReset events ∨ carried construction events = pending events now

instance (construction : Construction) (events : List Event) (now : ℚ) :
    Decidable (Balanced construction events now) := inferInstanceAs (Decidable (_ ∨ _))

section Events

variable (events : List Event) (now x : ℚ)

@[simp] private theorem changes_add : changes (events ++ [.add now x]) = (now,x) :: changes events := by
  simp [changes,Event.change]

@[simp] private theorem changes_resetMeasures : changes (events ++ [.resetMeasures now]) = changes events := by
  simp [changes,Event.change]

@[simp] private theorem changes_mean : changes (events ++ [.mean now]) = changes events := by
  simp [changes,Event.change]

@[simp] private theorem lastReset_add : lastReset (events ++ [.add now x]) = lastReset events := by
  simp [lastReset,Event.reset]

@[simp] private theorem lastReset_resetMeasures : lastReset (events ++ [.resetMeasures now]) = now := by
  simp [lastReset,Event.reset]

@[simp] private theorem lastReset_mean : lastReset (events ++ [.mean now]) = lastReset events := by
  simp [lastReset,Event.reset]

private theorem untilReset_kept {event : Event} (kept : event.reset = none) :
    untilReset (events ++ [event]) = untilReset events := by
  simp [untilReset,kept]

private theorem sinceReset_kept {event : Event} (kept : event.reset = none) :
    sinceReset (events ++ [event]) = sinceReset events ++ [event] := by
  simp [sinceReset,kept]

@[simp] private theorem untilReset_resetMeasures :
    untilReset (events ++ [.resetMeasures now]) = events ++ [.resetMeasures now] := by
  simp [untilReset,Event.reset]

@[simp] private theorem sinceReset_resetMeasures : sinceReset (events ++ [.resetMeasures now]) = [] := by
  simp [sinceReset,Event.reset]

end Events

private theorem untilReset_append_sinceReset (events : List Event) :
    untilReset events ++ sinceReset events = events := List.rdropWhile_append_rtakeWhile ..

private theorem ordered_snoc {events : List Event} {event : Event} {now : ℚ}
    (ordered : Ordered (events ++ [event]) now) : Ordered events event.now ∧ event.now ≤ now := by
  simp only [Ordered,List.map_append,List.map_cons,List.map_nil,← List.cons_append] at ordered
  obtain ⟨earlier,-,le⟩ := List.pairwise_append.mp ordered
  exact ⟨earlier,le event.now (by simp) now (by simp)⟩

private theorem headD_le {times : List ℚ} {now : ℚ} (start : 0 ≤ now) (le : ∀ time ∈ times, time ≤ now) :
    times.headD 0 ≤ now := by
  cases times with
  | nil => exact start
  | cons first rest => exact le first (by simp)

private theorem now_of_change {event : Event} {change : ℚ × ℚ} (found : event.change = some change) : event.now = change.1 := by
  cases event with
  | add now x =>
    cases found
    rfl
  | resetMeasures now | mean now => cases found

private theorem now_of_reset {event : Event} {time : ℚ} (found : event.reset = some time) : event.now = time := by
  cases event with
  | resetMeasures now => exact Option.some.inj found
  | add now x | mean now => cases found

private theorem times_le {events : List Event} {now : ℚ} (ordered : Ordered events now) :
    lastReset events ≤ now ∧ 0 ≤ (last (changes events)).1 ∧ (last (changes events)).1 ≤ now := by
  obtain ⟨later,-,le⟩ := List.pairwise_append.mp ordered
  have nonneg : ∀ event ∈ events, 0 ≤ event.now := fun event member =>
    (List.pairwise_cons.mp later).1 event.now (List.mem_map_of_mem member)
  have bound : ∀ event ∈ events, event.now ≤ now := fun event member =>
    le event.now (List.mem_cons_of_mem 0 (List.mem_map_of_mem member)) now (by simp)
  have start : 0 ≤ now := le 0 (by simp) now (by simp)
  have recordedAt : ∀ change ∈ changes events, ∃ event ∈ events, event.now = change.1 := by
    intro change member
    obtain ⟨event,inside,found⟩ := List.mem_filterMap.mp (List.mem_reverse.mp member)
    exact ⟨event,inside,now_of_change found⟩
  refine ⟨headD_le start fun time member => ?_,?_⟩
  · obtain ⟨event,inside,found⟩ := List.mem_filterMap.mp (List.mem_reverse.mp member)
    exact now_of_reset found ▸ bound event inside
  · cases known : changes events with
    | nil => exact ⟨le_rfl,start⟩
    | cons newest before =>
      obtain ⟨event,inside,same⟩ := recordedAt newest (by simp [known])
      exact ⟨same ▸ nonneg event inside,same ▸ bound event inside⟩

/-- The part of the area that the mean has rightly ends at the last change, or at the reset. -/
private def covered (events : List Event) : ℚ := max (lastReset events) (last (changes events)).1

/-- There is no reset before the last change that the change did not see. -/
private def Changed (events : List Event) : Prop := untilReset events = [] ∨ changes (sinceReset events) ≠ []

private structure Inv (construction : Construction) (events : List Event) (measure : SystemMeasure) : Prop where
  moments : 1 ≤ measure.moments
  resetTime : measure.resetTime = lastReset events
  changed : last (changes events) = (measure.lastChange,measure.current)
  unreset : untilReset events = [] → lastReset events = 0
  resetFirst : Changed events → lastReset events ≤ measure.lastChange
  changeFirst : ¬ Changed events → measure.lastChange ≤ lastReset events
  moment : (measure.moment 1 : ℝ) = carried construction events +
    ∫ moment in (lastReset events : ℝ)..covered events, signal events moment

private theorem last_map_cast (events : List (ℚ × ℚ)) :
    last (events.map fun change => ((change.1 : ℝ),(change.2 : ℝ))) =
      (((last events).1 : ℝ),((last events).2 : ℝ)) := by
  cases events <;> simp [last]

private theorem changes_untilReset {events : List Event} (unchanged : ¬ Changed events) :
    changes (untilReset events) = changes events := by
  have none : changes (sinceReset events) = [] := not_not.mp (not_or.mp unchanged).2
  have parts : changes events = changes (sinceReset events) ++ changes (untilReset events) := by
    conv_lhs => rw [← untilReset_append_sinceReset events]
    simp [changes]
  rw [parts,none,List.nil_append]

private theorem integral_signal_split {events : List Event} {now : ℚ} (later : covered events ≤ now) :
    ∫ moment in (lastReset events : ℝ)..now, signal events moment =
      (∫ moment in (lastReset events : ℝ)..covered events, signal events moment) + pending events now := by
  have behind : (last ((changes events).map fun change => ((change.1 : ℝ),(change.2 : ℝ)))).1 ≤
      (covered events : ℝ) := by
    rw [last_map_cast]
    exact Rat.cast_le.mpr (le_max_right _ _)
  rw [signal,integral_valueAt_split behind (by exact_mod_cast later),last_map_cast,pending,covered]
  push_cast
  rfl

private theorem inv_default (construction : Construction) : Inv construction [] construction.measure where
  moments := by
    cases construction with
    | default => simp [Construction.measure]
    | moments m memory =>
      simp only [Construction.measure,maxMeasures]
      split_ifs <;> omega
  resetTime := rfl
  changed := rfl
  unreset := fun _ => rfl
  resetFirst := fun _ => le_rfl
  changeFirst := fun unchanged => absurd (Or.inl (by simp [untilReset])) unchanged
  moment := by simp [Construction.measure,carried,untilReset,covered,lastReset,changes,last]

section Step

variable {construction : Construction} {events : List Event} {measure : SystemMeasure} {now : ℚ}

private theorem inv_mean (inv : Inv construction events measure) :
    Inv construction (events ++ [.mean now]) measure := by
  have until_eq : untilReset (events ++ [.mean now]) = untilReset events := untilReset_kept events rfl
  have since_eq : changes (sinceReset (events ++ [.mean now])) = changes (sinceReset events) := by
    rw [sinceReset_kept events rfl,changes_mean]
  have changed_iff : Changed (events ++ [.mean now]) ↔ Changed events := by rw [Changed,until_eq,since_eq,Changed]
  constructor
  case moments => exact inv.moments
  case resetTime => simpa using inv.resetTime
  case changed => simpa using inv.changed
  case unreset => simpa [until_eq] using inv.unreset
  case resetFirst => simpa [changed_iff] using inv.resetFirst
  case changeFirst => simpa [changed_iff] using inv.changeFirst
  case moment =>
    simp only [carried,until_eq,since_eq,lastReset_mean,covered,changes_mean,signal]
    exact inv.moment

private theorem inv_resetMeasures (inv : Inv construction events measure) (ordered : Ordered events now) :
    Inv construction (events ++ [.resetMeasures now]) (measure.resetMeasures now) := by
  have late : measure.lastChange ≤ now := by
    have times := (times_le ordered).2.2
    rwa [inv.changed] at times
  have unchanged : ¬ Changed (events ++ [.resetMeasures now]) := by simp [Changed,changes]
  constructor
  case moments => exact inv.moments
  case resetTime => simp [SystemMeasure.resetMeasures]
  case changed => rw [changes_resetMeasures,inv.changed,SystemMeasure.resetMeasures]
  case unreset => simp
  case resetFirst => exact fun changed => absurd changed unchanged
  case changeFirst => exact fun _ => by rwa [lastReset_resetMeasures,SystemMeasure.resetMeasures]
  case moment =>
    have end_eq : covered (events ++ [.resetMeasures now]) = now := by
      rw [covered,lastReset_resetMeasures,changes_resetMeasures,inv.changed]
      exact max_eq_left late
    have none : carried construction (events ++ [.resetMeasures now]) = 0 := by simp [carried,changes]
    have cleared : (measure.resetMeasures now).moment 1 = 0 := if_pos ⟨le_rfl,by simpa using inv.moments⟩
    rw [cleared,none,end_eq,lastReset_resetMeasures,intervalIntegral.integral_same]
    simp

/-- The change adds the value since the last change. -/
private theorem carried_add (inv : Inv construction events measure) (x : ℚ) :
    carried construction (events ++ [.add now x]) + pending events now =
      carried construction events + measure.current * (now - measure.lastChange) := by
  have until_eq : untilReset (events ++ [.add now x]) = untilReset events := untilReset_kept events rfl
  have since_ne : changes (sinceReset (events ++ [.add now x])) ≠ [] := by
    rw [sinceReset_kept events rfl,changes_add]
    exact List.cons_ne_nil _ _
  rw [carried,carried,until_eq,if_neg since_ne,pending,lastReset_add,inv.changed]
  by_cases changed : Changed events
  · -- The last change was after the reset: nothing but what was pending is added.
    rw [max_eq_right (inv.resetFirst changed)]
    by_cases unreset : untilReset events = []
    · simp only [if_pos unreset]
    · have since : changes (sinceReset events) ≠ [] := changed.resolve_left unreset
      simp only [if_neg unreset,if_neg since]
  · obtain ⟨reset,unchanged⟩ := not_or.mp changed
    rw [max_eq_left (inv.changeFirst changed),changes_untilReset changed,inv.changed,if_neg reset,if_neg reset,
      if_pos (not_not.mp unchanged)]
    ring

private theorem inv_add (inv : Inv construction events measure) (ordered : Ordered events now) (x : ℚ) :
    Inv construction (events ++ [.add now x]) (measure.add now x) := by
  obtain ⟨resetBefore,nonneg,changeBefore⟩ := times_le ordered
  have until_eq : untilReset (events ++ [.add now x]) = untilReset events := untilReset_kept events rfl
  have changed : Changed (events ++ [.add now x]) := by
    refine .inr ?_
    rw [sinceReset_kept events rfl,changes_add]
    exact List.cons_ne_nil _ _
  constructor
  case moments => exact inv.moments
  case resetTime => rw [lastReset_add,← inv.resetTime,SystemMeasure.add]
  case changed => simp [last,SystemMeasure.add]
  case unreset => simpa [until_eq] using inv.unreset
  case resetFirst => exact fun _ => by simpa [SystemMeasure.add] using resetBefore
  case changeFirst => exact fun unchanged => absurd changed unchanged
  case moment =>
    have end_eq : covered (events ++ [.add now x]) = now := by
      rw [covered,lastReset_add,changes_add]
      exact max_eq_right resetBefore
    have kept : ∫ moment in (lastReset events : ℝ)..now, signal (events ++ [.add now x]) moment =
        ∫ moment in (lastReset events : ℝ)..now, signal events moment := by
      rw [signal,changes_add,List.map_cons]
      exact integral_valueAt_cons_of_le (by exact_mod_cast resetBefore) le_rfl
    have added : (measure.add now x).moment 1 =
        measure.moment 1 + measure.current * (now - measure.lastChange) := by
      rw [← pow_one measure.current]
      exact if_pos ⟨le_rfl,by simpa using inv.moments⟩
    have balance : (carried construction (events ++ [.add now x]) : ℝ) + pending events now =
        carried construction events + measure.current * (now - measure.lastChange) := by
      exact_mod_cast carried_add inv x
    rw [added,end_eq,lastReset_add,kept,integral_signal_split (max_le resetBefore changeBefore)]
    push_cast
    rw [inv.moment]
    linarith

end Step

private theorem inv_recorded (construction : Construction) (events : List Event) :
    ∀ now, Ordered events now → Inv construction events (recorded construction events) := by
  induction events using List.reverseRecOn with
  | nil => exact fun _ _ => inv_default construction
  | append_singleton events event ih =>
    intro now ordered
    obtain ⟨earlier,-⟩ := ordered_snoc ordered
    have inv := ih event.now earlier
    rw [recorded,List.foldl_append,List.foldl_cons,List.foldl_nil,← recorded]
    cases event with
    | add now x => exact inv_add inv earlier x
    | resetMeasures now => exact inv_resetMeasures inv earlier
    | mean now => exact inv_mean inv

/-- The mean is the time average exactly when the area that it has twice is the one that it lacks. -/
theorem mean_is_time_average_iff (construction : Construction) (events : List Event) (now : ℚ)
    (ordered : Ordered events now) :
    ((recorded construction events).mean now).map (fun mean : ℚ => (mean : ℝ)) = timeAverage events now ↔
      Balanced construction events now := by
  have inv := inv_recorded construction events now ordered
  obtain ⟨resetBefore,-,changeBefore⟩ := times_le ordered
  simp only [SystemMeasure.mean,timeAverage,Balanced,inv.resetTime,sub_eq_zero]
  by_cases same : now = lastReset events
  · simp [same]
  · have time : (now : ℝ) - lastReset events ≠ 0 := sub_ne_zero.mpr (by exact_mod_cast same)
    rw [if_neg same,if_neg same,integral_signal_split (max_le resetBefore changeBefore)]
    simp only [Option.map_some,Option.some.injEq,same,false_or]
    push_cast
    rw [div_left_inj' time,inv.moment,add_comm,add_right_inj]
    norm_cast

/-- A value that goes back to 0 before the query. -/
private def emptied : List Event := [.add 1 2,.mean 2,.add 4 0]

theorem mean_of_emptied : Ordered emptied 5 ∧
    ((recorded .default emptied).mean 5).map (fun mean : ℚ => (mean : ℝ)) = timeAverage emptied 5 :=
  ⟨by decide +kernel,(mean_is_time_average_iff .default emptied 5 (by decide +kernel)).mpr (by decide +kernel)⟩

/-- The value is 2 from the start on, and the mean is 0: no change has added an area. -/
theorem mean_leaves_out_last_value : Ordered [.add 0 2] 1 ∧
    (recorded .default [.add 0 2]).mean 1 = some 0 ∧ timeAverage [.add 0 2] 1 = some 2 := by
  refine ⟨by decide +kernel,by decide +kernel,?_⟩
  have area : ∫ moment in (0 : ℝ)..1, valueAt [(0,2)] moment = 2 * (1 - 0) :=
    integral_valueAt_of_last_le le_rfl zero_le_one
  have signal_eq : signal [.add 0 2] = valueAt [(0,2)] := by simp [signal,changes,Event.change]
  rw [timeAverage,signal_eq]
  simp [lastReset,Event.reset,area]

end Vexjine.SystemMeasures
