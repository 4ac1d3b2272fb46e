import Vexjine.VirtualTimeline

/-!
# Runs of the disabling timeline

The calls on one disabling timeline in any order. Its global time is the oldest
local time of the active cores as long as no core that alone holds the oldest
time is disabled, and it goes back only where a core that was left behind is
enabled again.
-/

namespace Vexjine.TimelineRuns
open Vexjine.VirtualTimeline
open Vexjine.Mutexes (Guarded)
set_option linter.unusedSimpArgs false

variable {cores : Nat}

/-- One call that returns. -/
def step (state : Guarded (Times cores)) (operation : MulticoreOperation cores) : Option (Guarded (Times cores)) :=
  (operation.perform .disabling state).map Prod.snd

/-- A timeline as its constructor leaves it: all times 0, no core active, the mutex free. -/
def fresh : Guarded (Times cores) := ⟨{},false⟩

/-- With an active core, the global time is the oldest local time of the active cores. -/
def OldestActive (times : Times cores) : Prop :=
  (∃ core, times.localCoreActive core = true) →
    IsLeast { time | ∃ core, times.localCoreActive core = true ∧ times.localCoreVirtualTimes core = time }
      times.globalVirtualTime

/-- The core is active and older than every other active core, of which there is one. -/
def SoleOldest (times : Times cores) (id : Fin (cores + 1)) : Prop :=
  times.localCoreActive id = true ∧ (∃ other, other ≠ id ∧ times.localCoreActive other = true) ∧
    ∀ other, other ≠ id → times.localCoreActive other = true →
      times.localCoreVirtualTimes id < times.localCoreVirtualTimes other

instance (times : Times cores) (id : Fin (cores + 1)) : Decidable (SoleOldest times id) :=
  inferInstanceAs (Decidable (_ ∧ _ ∧ _))

/-- No time reaches `LLONG_MAX`, which the scans take for "no core is active", durations are not
    negative, and no core that alone is the oldest active one is disabled. -/
def Orderly (state : Guarded (Times cores)) : MulticoreOperation cores → Prop
  | .leapForwardTo time _ | .getLocalTimelineActivationTime time _ => time < LLONG_MAX
  | .addTimeOfUnknownRealTimeDurationAndSynchronize forwardTime | .addTimeOfThreadExecutingAtUnknownTime forwardTime =>
    0 ≤ forwardTime ∧ ∀ core, state.data.localCoreVirtualTimes core + forwardTime < LLONG_MAX
  | .disableLocalTimeline id => ¬ SoleOldest state.data id
  | _ => True

instance (state : Guarded (Times cores)) : (operation : MulticoreOperation cores) → Decidable (Orderly state operation)
  | .leapForwardTo time _ | .getLocalTimelineActivationTime time _ => inferInstanceAs (Decidable (time < LLONG_MAX))
  | .addTimeOfUnknownRealTimeDurationAndSynchronize forwardTime | .addTimeOfThreadExecutingAtUnknownTime forwardTime =>
    inferInstanceAs (Decidable (0 ≤ forwardTime ∧ ∀ core, state.data.localCoreVirtualTimes core + forwardTime < LLONG_MAX))
  | .disableLocalTimeline id => inferInstanceAs (Decidable (¬ SoleOldest state.data id))
  | .reset | .updateGlobalTimeTo _ | .shouldBlockCoreProgress _ _ | .getUpdatedGlobalTime => .isTrue trivial

/-- A call that returns leaves its effect and a free mutex. -/
theorem step_effect {state next : Guarded (Times cores)} {operation : MulticoreOperation cores}
    (free : state.held = false) (stepped : step state operation = some next) :
    next = ⟨operation.effect .disabling state.data,false⟩ := by
  obtain ⟨times,held⟩ := state
  cases free
  simp only [step,Option.map_eq_some_iff] at stepped
  obtain ⟨⟨answer,after⟩,executed,rfl⟩ := stepped
  exact effect_of_perform executed

/-! ## The oldest active core -/

theorem longLong_of_range {value : Int} (lower : 0 ≤ value) (upper : value ≤ LLONG_MAX) : longLong value = value := by
  unfold LLONG_MAX at upper
  unfold longLong
  rw [Int.bmod_eq_of_le] <;> omega

@[simp] theorem raise_local (times : Times cores) (id core : Fin (cores + 1)) (time : Int) :
    (times.raise id time).localCoreVirtualTimes core =
      if core = id then max (times.localCoreVirtualTimes id) time else times.localCoreVirtualTimes core := by
  unfold Times.raise
  by_cases later : times.localCoreVirtualTimes id < time
  · by_cases same : core = id
    · simp [Times.setLocal,later,same,max_eq_right later.le]
    · simp [Times.setLocal,later,same]
  · by_cases same : core = id
    · simp [later,same,max_eq_left (not_lt.mp later)]
    · simp [later,same]

@[simp] theorem raise_active (times : Times cores) (id : Fin (cores + 1)) (time : Int) :
    (times.raise id time).localCoreActive = times.localCoreActive := by
  unfold Times.raise
  split <;> rfl

@[simp] theorem raise_global (times : Times cores) (id : Fin (cores + 1)) (time : Int) :
    (times.raise id time).globalVirtualTime = times.globalVirtualTime := by
  unfold Times.raise
  split <;> rfl

@[simp] theorem refreshed_local (times : Times cores) :
    times.refreshed.localCoreVirtualTimes = times.localCoreVirtualTimes := by
  unfold Times.refreshed
  split <;> rfl

@[simp] theorem refreshed_active (times : Times cores) : times.refreshed.localCoreActive = times.localCoreActive := by
  unfold Times.refreshed
  split <;> rfl

theorem refreshed_global (times : Times cores) : times.refreshed.globalVirtualTime =
    if times.oldestActive ≠ LLONG_MAX then times.oldestActive else times.globalVirtualTime := by
  unfold Times.refreshed
  split <;> rfl

/-- A refresh makes the global time the oldest active local time, if one is below the largest `long long`. -/
private theorem refreshed_oldest {times : Times cores}
    (below : ∀ core, times.localCoreVirtualTimes core < LLONG_MAX) : OldestActive times.refreshed := by
  rintro ⟨core,active⟩
  rw [refreshed_active] at active
  have least := Scans.least_isLeast times.localCoreActive times.localCoreVirtualTimes
    (List.mem_finRange core) active (below core)
  have found : times.oldestActive ≠ LLONG_MAX := by
    have smaller : times.oldestActive ≤ times.localCoreVirtualTimes core :=
      Scans.least_le _ _ (List.mem_finRange core) active
    have strict := below core
    omega
  rw [refreshed_active,refreshed_local,refreshed_global,if_pos found]
  simp only [List.mem_finRange,true_and] at least
  exact least

/-- The bounds the runs keep, beside the law itself. -/
private structure Kept (state : Guarded (Times cores)) : Prop where
  free : state.held = false
  nonneg : ∀ core, 0 ≤ state.data.localCoreVirtualTimes core
  below : ∀ core, state.data.localCoreVirtualTimes core < LLONG_MAX
  oldest : OldestActive state.data

private theorem kept_fresh : Kept (fresh : Guarded (Times cores)) where
  free := rfl
  nonneg _ := le_rfl
  below _ := by simp [fresh,LLONG_MAX]
  oldest := by
    rintro ⟨core,active⟩
    cases active

/-- A core is the first one or one the scans walk over. -/
private theorem core_cases (core : Fin (cores + 1)) : core = 0 ∨ core ∈ (List.finRange (cores + 1)).tail := by
  have split : List.finRange (cores + 1) = 0 :: (List.finRange (cores + 1)).tail := by
    simp [List.finRange_succ]
  have member : core ∈ List.finRange (cores + 1) := List.mem_finRange core
  rw [split] at member
  exact List.mem_cons.mp member

theorem latest_mem (times : Times cores) : ∃ core, times.latest = times.localCoreVirtualTimes core := by
  rcases Scans.greatest_attained times.localCoreVirtualTimes (times.localCoreVirtualTimes 0)
    (List.finRange (cores + 1)).tail with start | ⟨core,-,found⟩
  · exact ⟨0,start⟩
  · exact ⟨core,found.symm⟩

theorem le_latest (times : Times cores) (core : Fin (cores + 1)) :
    times.localCoreVirtualTimes core ≤ times.latest := by
  have bounds := (Scans.greatest_le_iff times.localCoreVirtualTimes (times.localCoreVirtualTimes 0) times.latest
    (List.finRange (cores + 1)).tail).mp le_rfl
  rcases core_cases core with rfl | inside
  · exact bounds.1
  · exact bounds.2 core inside

/-- The core that takes unknown time is an oldest one. -/
theorem oldestCore_le (times : Times cores) (core : Fin (cores + 1)) :
    times.localCoreVirtualTimes times.oldestCore ≤ times.localCoreVirtualTimes core := by
  have bounds := Scans.leastIndex_le times.localCoreVirtualTimes 0 (List.finRange (cores + 1)).tail
  rcases core_cases core with rfl | inside
  · exact bounds.1
  · exact bounds.2 core inside

private theorem disable_oldest {times : Times cores} {id : Fin (cores + 1)} (oldest : OldestActive times) :
    ((∃ core, (times.setActive id false).localCoreActive core = true) → ¬ SoleOldest times id) →
      OldestActive (times.setActive id false) := by
  rintro shared ⟨core,active⟩
  have notSole := shared ⟨core,active⟩
  have different : core ≠ id := by
    rintro rfl
    simp [Times.setActive] at active
  have wasActive : times.localCoreActive core = true := by simpa [Times.setActive,different] using active
  obtain ⟨⟨first,firstActive,firstTime⟩,lower⟩ := oldest ⟨core,wasActive⟩
  have bound : ∀ other, times.localCoreActive other = true →
      times.globalVirtualTime ≤ times.localCoreVirtualTimes other := fun other isActive => lower ⟨other,isActive,rfl⟩
  refine ⟨?_,?_⟩
  · by_cases same : first = id
    · -- the disabled core was an oldest one, so another active core is as old
      subst same
      have tied : ∃ other, other ≠ first ∧ times.localCoreActive other = true ∧
          times.localCoreVirtualTimes other ≤ times.localCoreVirtualTimes first := by
        by_contra alone
        push Not at alone
        exact notSole ⟨firstActive,⟨core,different,wasActive⟩,alone⟩
      obtain ⟨other,otherDifferent,otherActive,otherOlder⟩ := tied
      refine ⟨other,by simp [Times.setActive,otherDifferent,otherActive],?_⟩
      have least := bound other otherActive
      change times.localCoreVirtualTimes other = times.globalVirtualTime
      omega
    · exact ⟨first,by simp [Times.setActive,same,firstActive],firstTime⟩
  · rintro time ⟨other,otherActive,rfl⟩
    have otherDifferent : other ≠ id := by
      rintro rfl
      simp [Times.setActive] at otherActive
    exact bound other (by simpa [Times.setActive,otherDifferent] using otherActive)

private theorem disable_sole {times : Times cores} {id : Fin (cores + 1)} (oldest : OldestActive times)
    (sole : SoleOldest times id) : ¬ OldestActive (times.setActive id false) := by
  obtain ⟨idActive,⟨other,different,otherActive⟩,older⟩ := sole
  obtain ⟨-,lower⟩ := oldest ⟨id,idActive⟩
  intro after
  obtain ⟨⟨first,firstActive,firstTime⟩,-⟩ :=
    after ⟨other,by simp [Times.setActive,different,otherActive]⟩
  have firstDifferent : first ≠ id := by
    rintro rfl
    simp [Times.setActive] at firstActive
  have younger := older first firstDifferent (by simpa [Times.setActive,firstDifferent] using firstActive)
  have bound : times.globalVirtualTime ≤ times.localCoreVirtualTimes id := lower ⟨id,idActive,rfl⟩
  change times.localCoreVirtualTimes first = times.globalVirtualTime at firstTime
  omega

private theorem step_kept {state next : Guarded (Times cores)} {operation : MulticoreOperation cores}
    (inv : Kept state) (orderly : Orderly state operation) (stepped : step state operation = some next) :
    Kept next := by
  obtain rfl := step_effect inv.free stepped
  have nonneg := inv.nonneg
  have below := inv.below
  -- every call but a reset, a block and a disabling ends in a refresh over times kept in bounds
  have settled : ∀ times : Times cores, (∀ core, 0 ≤ times.localCoreVirtualTimes core) →
      (∀ core, times.localCoreVirtualTimes core < LLONG_MAX) → Kept ⟨times.refreshed,false⟩ :=
    fun times low high => ⟨rfl,by simpa using low,by simpa using high,refreshed_oldest high⟩
  cases operation with
  | reset =>
    refine ⟨rfl,fun _ => le_rfl,fun _ => by simp [MulticoreOperation.effect,Times.setAllLocal,LLONG_MAX],?_⟩
    rintro ⟨core,active⟩
    cases active
  | updateGlobalTimeTo time => exact settled _ nonneg below
  | leapForwardTo time id =>
    have bound : time < LLONG_MAX := orderly
    refine settled _ (fun core => ?_) (fun core => ?_)
    · rw [raise_local]
      split
      · exact (nonneg id).trans (le_max_left _ _)
      · exact nonneg core
    · rw [raise_local]
      split
      · exact max_lt (below id) bound
      · exact below core
  | addTimeOfUnknownRealTimeDurationAndSynchronize forwardTime =>
    obtain ⟨forward,room⟩ := orderly
    obtain ⟨core,found⟩ := latest_mem state.data
    have low := nonneg core
    have high := room core
    have kept : longLong (state.data.latest + forwardTime) = state.data.latest + forwardTime :=
      longLong_of_range (by omega) (by omega)
    refine settled _ (fun _ => ?_) (fun _ => ?_) <;> simp only [Times.setAllLocal,kept] <;> omega
  | addTimeOfThreadExecutingAtUnknownTime forwardTime =>
    obtain ⟨forward,room⟩ := orderly
    have low := nonneg state.data.oldestCore
    have high := room state.data.oldestCore
    have kept : longLong (state.data.localCoreVirtualTimes state.data.oldestCore + forwardTime) =
        state.data.localCoreVirtualTimes state.data.oldestCore + forwardTime :=
      longLong_of_range (by omega) (by omega)
    refine settled _ (fun core => ?_) (fun core => ?_) <;>
      by_cases same : core = state.data.oldestCore <;> simp only [Times.setLocal,kept,same] <;> simp [same] <;>
      first | omega | exact nonneg core | exact below core
  | shouldBlockCoreProgress slot id => exact ⟨rfl,nonneg,below,inv.oldest⟩
  | disableLocalTimeline id => exact ⟨rfl,nonneg,below,disable_oldest inv.oldest fun _ => orderly⟩
  | getLocalTimelineActivationTime threadTime id =>
    have bound : threadTime < LLONG_MAX := orderly
    refine settled _ (fun core => ?_) (fun core => ?_)
    · rw [raise_local]
      split
      · exact (nonneg id).trans (le_max_left _ _)
      · exact nonneg core
    · rw [raise_local]
      split
      · exact max_lt (below id) bound
      · exact below core
  | getUpdatedGlobalTime => exact settled _ nonneg below

/-- In every run that meets the condition the global time is the oldest active local time after
    every call; and after such a run, a disabling keeps it so exactly when it meets the condition
    or leaves no core active. -/
theorem global_is_oldest (calls : List (MulticoreOperation cores)) (state : Guarded (Times cores))
    (executed : Runs.run step fresh calls = some state) (orderly : Runs.Meets step Orderly fresh calls) :
    OldestActive state.data ∧ ∀ id next, step state (.disableLocalTimeline id) = some next →
      (OldestActive next.data ↔ ¬ SoleOldest state.data id) := by
  have inv : Kept state :=
    Runs.invariant_of_meets (fun _ _ _ before ok stepped => step_kept before ok stepped) kept_fresh orderly executed
  refine ⟨inv.oldest,fun id next stepped => ?_⟩
  obtain rfl := step_effect inv.free stepped
  exact ⟨fun after sole => disable_sole inv.oldest sole after,fun shared => disable_oldest inv.oldest fun _ => shared⟩

/-- Core 0 at 4 and core 1 at 10, then both leap and the older one is disabled last. -/
theorem global_is_oldest_two_cores : ∃ state : Guarded (Times 1),
    Runs.run step fresh [.getLocalTimelineActivationTime 4 0,.getLocalTimelineActivationTime 10 1,
      .leapForwardTo 12 0,.disableLocalTimeline 0] = some state ∧ state.data.globalVirtualTime = 10 ∧
      OldestActive state.data := by
  obtain ⟨state,executed⟩ : ∃ state : Guarded (Times 1),
    Runs.run step fresh [.getLocalTimelineActivationTime 4 0,.getLocalTimelineActivationTime 10 1,
      .leapForwardTo 12 0,.disableLocalTimeline 0] = some state := ⟨_,rfl⟩
  refine ⟨state,executed,?_,(global_is_oldest _ state executed (by decide)).1⟩
  cases executed
  decide

/-- Disabling the older of two active cores leaves the global time at its local time. -/
theorem disabled_core_keeps_global_time : ∃ (calls : List (MulticoreOperation 1)) (state : Guarded (Times 1)),
    Runs.run step fresh calls = some state ∧ state.data.localCoreActive 1 = true ∧ ¬ OldestActive state.data := by
  refine ⟨[.getLocalTimelineActivationTime 4 0,.getLocalTimelineActivationTime 10 1,.disableLocalTimeline 0],
    _,rfl,by decide,fun oldest => ?_⟩
  obtain ⟨⟨core,active,found⟩,-⟩ := oldest ⟨1,by decide⟩
  revert active found
  fin_cases core <;> decide

/-! ## The direction of the global time -/

/-- No reset, times that a `long long` holds, and durations that are not negative and overflow
    no local time. -/
def Forward (state : Guarded (Times cores)) : MulticoreOperation cores → Prop
  | .reset => False
  | .leapForwardTo time _ | .getLocalTimelineActivationTime time _ => time ≤ LLONG_MAX
  | .addTimeOfUnknownRealTimeDurationAndSynchronize forwardTime | .addTimeOfThreadExecutingAtUnknownTime forwardTime =>
    0 ≤ forwardTime ∧ ∀ core, state.data.localCoreVirtualTimes core + forwardTime ≤ LLONG_MAX
  | _ => True

instance (state : Guarded (Times cores)) : (operation : MulticoreOperation cores) → Decidable (Forward state operation)
  | .reset => .isFalse id
  | .leapForwardTo time _ | .getLocalTimelineActivationTime time _ => inferInstanceAs (Decidable (time ≤ LLONG_MAX))
  | .addTimeOfUnknownRealTimeDurationAndSynchronize forwardTime | .addTimeOfThreadExecutingAtUnknownTime forwardTime =>
    inferInstanceAs (Decidable (0 ≤ forwardTime ∧ ∀ core, state.data.localCoreVirtualTimes core + forwardTime ≤ LLONG_MAX))
  | .updateGlobalTimeTo _ | .disableLocalTimeline _ | .shouldBlockCoreProgress _ _ | .getUpdatedGlobalTime => .isTrue trivial

/-- The call enables a core whose time, moved forward to the thread's, is before the global time. -/
def EnablesLaggard (state : Guarded (Times cores)) : MulticoreOperation cores → Prop
  | .getLocalTimelineActivationTime threadTime id =>
    max (state.data.localCoreVirtualTimes id) threadTime < state.data.globalVirtualTime
  | _ => False

instance (state : Guarded (Times cores)) : (operation : MulticoreOperation cores) →
    Decidable (EnablesLaggard state operation)
  | .getLocalTimelineActivationTime threadTime id => inferInstanceAs
      (Decidable (max (state.data.localCoreVirtualTimes id) threadTime < state.data.globalVirtualTime))
  | .reset | .updateGlobalTimeTo _ | .leapForwardTo _ _ | .addTimeOfUnknownRealTimeDurationAndSynchronize _
  | .addTimeOfThreadExecutingAtUnknownTime _ | .shouldBlockCoreProgress _ _ | .disableLocalTimeline _
  | .getUpdatedGlobalTime => .isFalse id

/-- The global time is never ahead of an active core. -/
structure Bounded (times : Times cores) : Prop where
  nonneg : ∀ core, 0 ≤ times.localCoreVirtualTimes core
  below : ∀ core, times.localCoreVirtualTimes core ≤ LLONG_MAX
  global : times.globalVirtualTime ≤ LLONG_MAX
  behind : ∀ core, times.localCoreActive core = true → times.globalVirtualTime ≤ times.localCoreVirtualTimes core

private theorem oldestActive_le {times : Times cores} {core : Fin (cores + 1)}
    (active : times.localCoreActive core = true) : times.oldestActive ≤ times.localCoreVirtualTimes core :=
  Scans.least_le _ _ (List.mem_finRange core) active

/-- A refresh keeps the bounds, also after an enabling that put the global time ahead. -/
private theorem refreshed_bounded {times : Times cores} (nonneg : ∀ core, 0 ≤ times.localCoreVirtualTimes core)
    (below : ∀ core, times.localCoreVirtualTimes core ≤ LLONG_MAX) (global : times.globalVirtualTime ≤ LLONG_MAX) :
    Bounded times.refreshed := by
  have ceiling : times.oldestActive ≤ LLONG_MAX := Scans.least_le_ceiling ..
  refine ⟨by simpa using nonneg,by simpa using below,?_,?_⟩
  · rw [refreshed_global]
    split <;> assumption
  · intro core active
    have older : times.oldestActive ≤ times.localCoreVirtualTimes core := oldestActive_le (by simpa using active)
    rw [refreshed_global,refreshed_local]
    split
    · exact older
    · have top : times.oldestActive = LLONG_MAX := by simpa using ‹¬ _ ≠ _›
      omega

/-- A refresh moves the global time forward when no active core is behind it. -/
private theorem le_refreshed {times : Times cores} (bounded : Bounded times) :
    times.globalVirtualTime ≤ times.refreshed.globalVirtualTime := by
  rw [refreshed_global]
  split
  · exact (Scans.le_least_iff ..).mpr ⟨bounded.global,fun core _ active => bounded.behind core active⟩
  · exact le_rfl

private theorem raise_bounded {times : Times cores} (bounded : Bounded times) (id : Fin (cores + 1)) {time : Int}
    (range : time ≤ LLONG_MAX) : Bounded (times.raise id time) := by
  refine ⟨fun core => ?_,fun core => ?_,by simpa using bounded.global,fun core active => ?_⟩
  · rw [raise_local]
    split
    · exact (bounded.nonneg id).trans (le_max_left _ _)
    · exact bounded.nonneg core
  · rw [raise_local]
    split
    · exact max_le (bounded.below id) range
    · exact bounded.below core
  · rw [raise_local,raise_global]
    have before := bounded.behind core (by simpa using active)
    split
    · next same =>
      subst same
      exact before.trans (le_max_left _ _)
    · exact before

private theorem raise_all_bounded {times : Times cores} (bounded : Bounded times) {forwardTime : Int}
    (forward : 0 ≤ forwardTime) (room : times.latest + forwardTime ≤ LLONG_MAX) :
    Bounded (times.setAllLocal (times.latest + forwardTime)) := by
  obtain ⟨first,found⟩ := latest_mem times
  have low := bounded.nonneg first
  refine ⟨fun _ => ?_,fun _ => room,bounded.global,fun core active => ?_⟩
  · change 0 ≤ times.latest + forwardTime
    omega
  · have before := bounded.behind core active
    have most := le_latest times core
    change times.globalVirtualTime ≤ times.latest + forwardTime
    omega

private theorem set_local_bounded {times : Times cores} (bounded : Bounded times) (id : Fin (cores + 1))
    {forwardTime : Int} (forward : 0 ≤ forwardTime) (room : times.localCoreVirtualTimes id + forwardTime ≤ LLONG_MAX) :
    Bounded (times.setLocal id (times.localCoreVirtualTimes id + forwardTime)) := by
  have low := bounded.nonneg id
  refine ⟨fun core => ?_,fun core => ?_,bounded.global,fun core active => ?_⟩
  · by_cases same : core = id
    · simp [Times.setLocal,same]
      omega
    · simpa [Times.setLocal,same] using bounded.nonneg core
  · by_cases same : core = id
    · simpa [Times.setLocal,same] using room
    · simpa [Times.setLocal,same] using bounded.below core
  · have before := bounded.behind core active
    by_cases same : core = id
    · subst same
      simp [Times.setLocal]
      omega
    · simpa [Times.setLocal,same] using before

private theorem enable_direction {times : Times cores} (bounded : Bounded times) (id : Fin (cores + 1)) {time : Int}
    (range : time ≤ LLONG_MAX) :
    Bounded ((times.setActive id true).raise id time).refreshed ∧
      (((times.setActive id true).raise id time).refreshed.globalVirtualTime < times.globalVirtualTime ↔
        max (times.localCoreVirtualTimes id) time < times.globalVirtualTime) := by
  have nonneg : ∀ core, 0 ≤ ((times.setActive id true).raise id time).localCoreVirtualTimes core := by
    intro core
    rw [raise_local]
    split
    · exact (bounded.nonneg id).trans (le_max_left _ _)
    · exact bounded.nonneg core
  have below : ∀ core, ((times.setActive id true).raise id time).localCoreVirtualTimes core ≤ LLONG_MAX := by
    intro core
    rw [raise_local]
    split
    · exact max_le (bounded.below id) range
    · exact bounded.below core
  have global : ((times.setActive id true).raise id time).globalVirtualTime = times.globalVirtualTime := by
    rw [raise_global]
    rfl
  refine ⟨refreshed_bounded nonneg below (global ▸ bounded.global),fun lower => ?_,fun laggard => ?_⟩
  · by_contra ahead
    have kept : Bounded ((times.setActive id true).raise id time) := by
      refine ⟨nonneg,below,global ▸ bounded.global,fun core active => ?_⟩
      rw [raise_local,global]
      split
      · exact not_lt.mp ahead
      · next different => exact bounded.behind core (by simpa [Times.setActive,different] using active)
    have forward := le_refreshed kept
    rw [global] at forward
    omega
  · have older : ((times.setActive id true).raise id time).oldestActive ≤
        ((times.setActive id true).raise id time).localCoreVirtualTimes id :=
      oldestActive_le (by simp [Times.setActive])
    rw [raise_local,if_pos rfl] at older
    have top := bounded.global
    have before : (times.setActive id true).localCoreVirtualTimes id = times.localCoreVirtualTimes id := rfl
    rw [before] at older
    rw [refreshed_global,if_pos (by omega)]
    omega

theorem step_direction {state next : Guarded (Times cores)} {operation : MulticoreOperation cores}
    (free : state.held = false) (bounded : Bounded state.data) (forward : Forward state operation)
    (stepped : step state operation = some next) :
    next.held = false ∧ Bounded next.data ∧
      (next.data.globalVirtualTime < state.data.globalVirtualTime ↔ EnablesLaggard state operation) := by
  obtain rfl := step_effect free stepped
  -- a refresh over bounded times with the same global time only moves it forward
  have settled : ∀ times : Times cores, Bounded times → times.globalVirtualTime = state.data.globalVirtualTime →
      Bounded times.refreshed ∧ (times.refreshed.globalVirtualTime < state.data.globalVirtualTime ↔ False) := by
    intro times kept same
    have later := le_refreshed kept
    exact ⟨refreshed_bounded kept.nonneg kept.below kept.global,by omega,False.elim⟩
  refine ⟨rfl,?_⟩
  cases operation with
  | reset => cases forward
  | updateGlobalTimeTo time => exact settled _ bounded rfl
  | leapForwardTo time id => exact settled _ (raise_bounded bounded id forward) (raise_global ..)
  | addTimeOfUnknownRealTimeDurationAndSynchronize forwardTime =>
    obtain ⟨positive,room⟩ := forward
    obtain ⟨first,found⟩ := latest_mem state.data
    have low := bounded.nonneg first
    have high := room first
    have kept : longLong (state.data.latest + forwardTime) = state.data.latest + forwardTime :=
      longLong_of_range (by omega) (by omega)
    simp only [MulticoreOperation.effect,MulticoreClass.updated,kept]
    exact settled _ (raise_all_bounded bounded positive (by omega)) rfl
  | addTimeOfThreadExecutingAtUnknownTime forwardTime =>
    obtain ⟨positive,room⟩ := forward
    have low := bounded.nonneg state.data.oldestCore
    have high := room state.data.oldestCore
    have kept : longLong (state.data.localCoreVirtualTimes state.data.oldestCore + forwardTime) =
        state.data.localCoreVirtualTimes state.data.oldestCore + forwardTime :=
      longLong_of_range (by omega) high
    simp only [MulticoreOperation.effect,MulticoreClass.updated,kept]
    exact settled _ (set_local_bounded bounded _ positive high) rfl
  | shouldBlockCoreProgress slot id => exact ⟨bounded,by simp [MulticoreOperation.effect,EnablesLaggard]⟩
  | disableLocalTimeline id =>
    refine ⟨⟨bounded.nonneg,bounded.below,bounded.global,fun core active => ?_⟩,
      by simp [MulticoreOperation.effect,EnablesLaggard,Times.setActive]⟩
    have different : core ≠ id := by
      rintro rfl
      simp [MulticoreOperation.effect,Times.setActive] at active
    exact bounded.behind core (by simpa [MulticoreOperation.effect,Times.setActive,different] using active)
  | getLocalTimelineActivationTime threadTime id => exact enable_direction bounded id forward
  | getUpdatedGlobalTime => exact settled _ bounded rfl

private theorem reached_bounded {calls : List (MulticoreOperation cores)} {state : Guarded (Times cores)}
    (executed : Runs.run step fresh calls = some state) (forward : Runs.Meets step Forward fresh calls) :
    state.held = false ∧ Bounded state.data := by
  have preserved : ∀ (middle : Guarded (Times cores)) operation next, (middle.held = false ∧ Bounded middle.data) →
      Forward middle operation → step middle operation = some next → next.held = false ∧ Bounded next.data := by
    intro middle operation next inv ok stepped
    have after := step_direction inv.1 inv.2 ok stepped
    exact ⟨after.1,after.2.1⟩
  refine Runs.invariant_of_meets preserved ⟨rfl,?_⟩ forward executed
  exact ⟨fun _ => le_rfl,fun _ => by simp [fresh,LLONG_MAX],by simp [fresh,LLONG_MAX],fun _ => by simp [fresh]⟩

/-- A call lowers the global time exactly when it enables a core that was left behind; a run
    without such a call never lowers it. -/
theorem global_falls_iff_laggard (before after : List (MulticoreOperation cores)) (state later : Guarded (Times cores))
    (executed : Runs.run step fresh before = some state) (forward : Runs.Meets step Forward fresh before)
    (continued : Runs.run step state after = some later) (alsoForward : Runs.Meets step Forward state after) :
    (∀ operation next, Forward state operation → step state operation = some next →
      (next.data.globalVirtualTime < state.data.globalVirtualTime ↔ EnablesLaggard state operation)) ∧
    (Runs.Meets step (fun state operation => ¬ EnablesLaggard state operation) state after →
      state.data.globalVirtualTime ≤ later.data.globalVirtualTime) := by
  have inv := reached_bounded executed forward
  refine ⟨fun operation next ok stepped => (step_direction inv.1 inv.2 ok stepped).2.2,fun noLaggard => ?_⟩
  have preserved : ∀ (middle : Guarded (Times cores)) operation next,
      (middle.held = false ∧ Bounded middle.data ∧ state.data.globalVirtualTime ≤ middle.data.globalVirtualTime) →
      (Forward middle operation ∧ ¬ EnablesLaggard middle operation) → step middle operation = some next →
      next.held = false ∧ Bounded next.data ∧ state.data.globalVirtualTime ≤ next.data.globalVirtualTime := by
    intro middle operation next kept ok stepped
    have direction := step_direction kept.1 kept.2.1 ok.1 stepped
    exact ⟨direction.1,direction.2.1,kept.2.2.trans (not_lt.mp (mt direction.2.2.mp ok.2))⟩
  exact (Runs.invariant_of_meets preserved ⟨inv.1,inv.2,le_rfl⟩ (Runs.meets_and alsoForward noLaggard) continued).2.2

private def firstCalls : List (MulticoreOperation 1) := [.getLocalTimelineActivationTime 4 0]

private def laterCalls : List (MulticoreOperation 1) :=
  [.getLocalTimelineActivationTime 4 1,.leapForwardTo 9 0,.addTimeOfUnknownRealTimeDurationAndSynchronize 3]

private def afterFirst : Guarded (Times 1) :=
  ⟨(MulticoreOperation.getLocalTimelineActivationTime 4 0).effect .disabling (fresh : Guarded (Times 1)).data,false⟩

/-- Core 1 is enabled at the global time, core 0 progresses and the background load is added. -/
theorem global_rises_two_cores : ∃ later : Guarded (Times 1),
    Runs.run step fresh firstCalls = some afterFirst ∧ Runs.run step afterFirst laterCalls = some later ∧
    later.data.globalVirtualTime = 12 ∧ afterFirst.data.globalVirtualTime ≤ later.data.globalVirtualTime := by
  have executed : Runs.run step fresh firstCalls = some afterFirst := rfl
  obtain ⟨later,continued⟩ : ∃ later, Runs.run step afterFirst laterCalls = some later := ⟨_,rfl⟩
  refine ⟨later,executed,continued,?_,?_⟩
  · cases continued
    decide
  · exact (global_falls_iff_laggard firstCalls laterCalls afterFirst later executed (by decide) continued
      (by decide)).2 (by decide)

/-- Enabling a core at 0 beside one at 10 takes the global time back from 10 to 0; and an added
    duration that overflows a local time takes it below 0. -/
theorem global_time_falls : (∃ state next : Guarded (Times 1),
    Runs.run step fresh [.getLocalTimelineActivationTime 10 0] = some state ∧
    step state (.getLocalTimelineActivationTime 0 1) = some next ∧
    next.data.globalVirtualTime < state.data.globalVirtualTime) ∧
    ∃ state next : Guarded (Times 1),
    Runs.run step fresh [.getLocalTimelineActivationTime (LLONG_MAX - 1) 0] = some state ∧
    step state (.addTimeOfUnknownRealTimeDurationAndSynchronize 10) = some next ∧
    next.data.globalVirtualTime < state.data.globalVirtualTime :=
  ⟨⟨_,_,rfl,rfl,by decide⟩,⟨_,_,rfl,rfl,by decide⟩⟩

end Vexjine.TimelineRuns
