import Vexjine.TimelineRuns

/-!
# Runs of the multicore timeline

The calls on one multicore timeline of the base class in any order. Its global
time is the latest local time, which four operations maintain each in its own
way, and only a reset takes a time back.
-/

namespace Vexjine.MulticoreRuns
open Vexjine.VirtualTimeline
open Vexjine.TimelineRuns (longLong_of_range latest_mem le_latest oldestCore_le raise_local raise_global)
open Vexjine.Mutexes (Guarded)
set_option linter.unusedSimpArgs false

variable {cores : Nat}

/-- One call that returns. -/
def step (state : Guarded (Times cores)) (operation : MulticoreOperation cores) : Option (Guarded (Times cores)) :=
  (operation.perform .multicore state).map Prod.snd

/-- A timeline as its constructor leaves it: all times 0 and the mutex free. -/
def fresh : Guarded (Times cores) := ⟨{},false⟩

/-- Durations are not negative, no sum of a local time and a duration passes the largest `long long`,
    and the global time is not set from outside beyond every local time. -/
def Regular (state : Guarded (Times cores)) : MulticoreOperation cores → Prop
  | .updateGlobalTimeTo time => ∃ core, time ≤ state.data.localCoreVirtualTimes core
  | .addTimeOfUnknownRealTimeDurationAndSynchronize forwardTime =>
    0 ≤ forwardTime ∧ ∀ core, state.data.localCoreVirtualTimes core + forwardTime ≤ LLONG_MAX
  | .addTimeOfThreadExecutingAtUnknownTime forwardTime =>
    0 ≤ forwardTime ∧ ∃ core, state.data.localCoreVirtualTimes core + forwardTime ≤ LLONG_MAX
  | _ => True

instance (state : Guarded (Times cores)) : (operation : MulticoreOperation cores) → Decidable (Regular state operation)
  | .updateGlobalTimeTo time => inferInstanceAs (Decidable (∃ core, time ≤ state.data.localCoreVirtualTimes core))
  | .addTimeOfUnknownRealTimeDurationAndSynchronize forwardTime =>
    inferInstanceAs (Decidable (0 ≤ forwardTime ∧ ∀ core, state.data.localCoreVirtualTimes core + forwardTime ≤ LLONG_MAX))
  | .addTimeOfThreadExecutingAtUnknownTime forwardTime =>
    inferInstanceAs (Decidable (0 ≤ forwardTime ∧ ∃ core, state.data.localCoreVirtualTimes core + forwardTime ≤ LLONG_MAX))
  | .reset | .leapForwardTo _ _ | .shouldBlockCoreProgress _ _ | .disableLocalTimeline _
  | .getLocalTimelineActivationTime _ _ | .getUpdatedGlobalTime => .isTrue trivial

/-- The global time is the latest local time, and no time is negative. -/
structure Synchronous (times : Times cores) : Prop where
  nonneg : ∀ core, 0 ≤ times.localCoreVirtualTimes core
  latest : IsGreatest (Set.range times.localCoreVirtualTimes) times.globalVirtualTime

/-- No time of the first is after that of the second. -/
structure NotBefore (times later : Times cores) : Prop where
  locals : ∀ core, times.localCoreVirtualTimes core ≤ later.localCoreVirtualTimes core
  global : times.globalVirtualTime ≤ later.globalVirtualTime

private theorem synchronous_fresh : Synchronous (fresh : Guarded (Times cores)).data :=
  ⟨fun _ => le_rfl,⟨0,rfl⟩,by rintro time ⟨core,rfl⟩; exact le_rfl⟩

/-- The global time kept at the latest of itself and a given time. -/
private theorem updated_global (time : Int) (times : Times cores) :
    (MulticoreClass.multicore.updated time times).globalVirtualTime = max times.globalVirtualTime time := by
  unfold MulticoreClass.updated
  by_cases later : times.globalVirtualTime < time
  · simp [later,Times.setGlobal,max_eq_right later.le]
  · simp [later,max_eq_left (not_lt.mp later)]

@[simp] private theorem updated_local (time : Int) (times : Times cores) :
    (MulticoreClass.multicore.updated time times).localCoreVirtualTimes = times.localCoreVirtualTimes := by
  simp only [MulticoreClass.updated]
  split <;> rfl

/-- Where no local time moves and the update is not beyond them, nothing changes. -/
private theorem updated_synchronous {times : Times cores} (inv : Synchronous times) {time : Int}
    (reached : ∃ core, time ≤ times.localCoreVirtualTimes core) :
    Synchronous (MulticoreClass.multicore.updated time times) ∧
      NotBefore times (MulticoreClass.multicore.updated time times) := by
  obtain ⟨core,below⟩ := reached
  have bounded : times.localCoreVirtualTimes core ≤ times.globalVirtualTime := inv.latest.2 ⟨core,rfl⟩
  have same : (MulticoreClass.multicore.updated time times).globalVirtualTime = times.globalVirtualTime := by
    rw [updated_global]
    omega
  refine ⟨⟨by simpa using inv.nonneg,?_⟩,by simp,same.ge⟩
  rw [updated_local,same]
  exact inv.latest

/-- One local time moved forward, with the update of the global time for it. -/
private theorem moved_synchronous {times moved : Times cores} (inv : Synchronous times) (id : Fin (cores + 1)) {time : Int}
    (forward : times.localCoreVirtualTimes id ≤ time)
    (locals : moved.localCoreVirtualTimes = Function.update times.localCoreVirtualTimes id time)
    (global : moved.globalVirtualTime = times.globalVirtualTime) :
    Synchronous (MulticoreClass.multicore.updated time moved) ∧
      NotBefore times (MulticoreClass.multicore.updated time moved) := by
  have low := inv.nonneg id
  refine ⟨⟨fun core => ?_,?_,?_⟩,fun core => ?_,?_⟩
  · rw [updated_local,locals]
    by_cases same : core = id
    · simp [same]
      omega
    · simpa [same] using inv.nonneg core
  · -- the latest core is the moved one or the one that was the latest before
    rw [updated_local,locals,updated_global,global]
    obtain ⟨first,found⟩ := inv.latest.1
    rcases le_total times.globalVirtualTime time with later | earlier
    · exact ⟨id,by simp [max_eq_right later]⟩
    · rw [max_eq_left earlier]
      by_cases same : first = id
      · subst same
        exact ⟨first,by simp; omega⟩
      · exact ⟨first,by simpa [same] using found⟩
  · rw [updated_local,locals,updated_global,global]
    rintro other ⟨core,rfl⟩
    by_cases same : core = id
    · simp [same]
    · have bounded : times.localCoreVirtualTimes core ≤ times.globalVirtualTime := inv.latest.2 ⟨core,rfl⟩
      simp [same]
      omega
  · rw [updated_local,locals]
    by_cases same : core = id
    · simpa [same] using forward
    · simp [same]
  · rw [updated_global,global]
    exact le_max_left _ _

private theorem raise_eq_update (times : Times cores) (id : Fin (cores + 1)) (time : Int) :
    (times.raise id time).localCoreVirtualTimes =
      Function.update times.localCoreVirtualTimes id (max (times.localCoreVirtualTimes id) time) := by
  funext core
  by_cases same : core = id
  · subst same
    simp
  · simp [same]

private theorem latest_eq_global {times : Times cores} (inv : Synchronous times) :
    times.latest = times.globalVirtualTime := by
  obtain ⟨core,found⟩ := latest_mem times
  obtain ⟨first,reached⟩ := inv.latest.1
  have upper : times.localCoreVirtualTimes core ≤ times.globalVirtualTime := inv.latest.2 ⟨core,rfl⟩
  have lower := le_latest times first
  omega

/-- All local times set to one that is not before the latest. -/
private theorem all_synchronous {times : Times cores} (inv : Synchronous times) {time : Int}
    (forward : times.globalVirtualTime ≤ time) :
    Synchronous (MulticoreClass.multicore.updated time (times.setAllLocal time)) ∧
      NotBefore times (MulticoreClass.multicore.updated time (times.setAllLocal time)) := by
  have low : 0 ≤ times.globalVirtualTime := (inv.nonneg 0).trans (inv.latest.2 ⟨0,rfl⟩)
  have reached : (MulticoreClass.multicore.updated time (times.setAllLocal time)).globalVirtualTime = time := by
    rw [updated_global]
    exact max_eq_right forward
  refine ⟨⟨fun core => ?_,⟨0,?_⟩,?_⟩,fun core => ?_,by rw [reached]; exact forward⟩
  · simp [Times.setAllLocal]
    omega
  · rw [reached]
    simp [Times.setAllLocal]
  · rw [reached]
    rintro other ⟨core,rfl⟩
    simp [Times.setAllLocal]
  · have bounded : times.localCoreVirtualTimes core ≤ times.globalVirtualTime := inv.latest.2 ⟨core,rfl⟩
    simp [Times.setAllLocal]
    omega

private theorem step_effect {state next : Guarded (Times cores)} {operation : MulticoreOperation cores}
    (free : state.held = false) (stepped : step state operation = some next) :
    next = ⟨operation.effect .multicore state.data,false⟩ := by
  obtain ⟨times,held⟩ := state
  cases free
  simp only [step,Option.map_eq_some_iff] at stepped
  obtain ⟨⟨answer,after⟩,executed,rfl⟩ := stepped
  exact effect_of_perform executed

private theorem step_returns {state : Guarded (Times cores)} (free : state.held = false)
    (operation : MulticoreOperation cores) :
    step state operation = some ⟨operation.effect .multicore state.data,false⟩ := by
  obtain ⟨times,held⟩ := state
  cases free
  obtain ⟨answer,executed⟩ := perform_returns .multicore operation times id
  simp [step,executed]

/-- What a call other than a reset keeps. -/
private theorem effect_synchronous {state : Guarded (Times cores)} {operation : MulticoreOperation cores}
    (inv : Synchronous state.data) (regular : Regular state operation) (noReset : operation ≠ .reset) :
    Synchronous (operation.effect .multicore state.data) ∧
      NotBefore state.data (operation.effect .multicore state.data) := by
  have same : Synchronous state.data ∧ NotBefore state.data state.data := ⟨inv,fun _ => le_rfl,le_rfl⟩
  cases operation with
  | reset => exact absurd rfl noReset
  | updateGlobalTimeTo time => exact updated_synchronous inv regular
  | leapForwardTo time id =>
    simp only [MulticoreOperation.effect,raise_local,if_pos]
    exact moved_synchronous inv id (le_max_left _ _) (raise_eq_update ..) (raise_global ..)
  | addTimeOfUnknownRealTimeDurationAndSynchronize forwardTime =>
    obtain ⟨positive,room⟩ := regular
    obtain ⟨first,found⟩ := latest_mem state.data
    have low := inv.nonneg first
    have high := room first
    have kept : longLong (state.data.latest + forwardTime) = state.data.latest + forwardTime :=
      longLong_of_range (by omega) (by omega)
    have global := latest_eq_global inv
    simp only [MulticoreOperation.effect,kept]
    exact all_synchronous inv (by omega)
  | addTimeOfThreadExecutingAtUnknownTime forwardTime =>
    obtain ⟨positive,core,room⟩ := regular
    have low := inv.nonneg state.data.oldestCore
    have older := oldestCore_le state.data core
    have kept : longLong (state.data.localCoreVirtualTimes state.data.oldestCore + forwardTime) =
        state.data.localCoreVirtualTimes state.data.oldestCore + forwardTime :=
      longLong_of_range (by omega) (by omega)
    simp only [MulticoreOperation.effect,kept]
    exact moved_synchronous inv state.data.oldestCore (by omega) rfl rfl
  | shouldBlockCoreProgress slot id => exact same
  | disableLocalTimeline id => exact same
  | getLocalTimelineActivationTime threadTime id =>
    simp only [MulticoreOperation.effect]
    -- the global time is updated with the thread's time, which the local time may be ahead of
    by_cases later : state.data.localCoreVirtualTimes id < threadTime
    · refine moved_synchronous inv id later.le ?_ (raise_global ..)
      rw [raise_eq_update,max_eq_right later.le]
    · rw [Times.raise,if_neg later]
      exact updated_synchronous inv ⟨id,not_lt.mp later⟩
  | getUpdatedGlobalTime => exact same

private theorem reset_synchronous (times : Times cores) :
    Synchronous ((MulticoreOperation.reset : MulticoreOperation cores).effect .multicore times) := by
  refine ⟨fun _ => le_rfl,⟨0,rfl⟩,?_⟩
  rintro time ⟨core,rfl⟩
  exact le_rfl

private theorem step_kept {state next : Guarded (Times cores)} {operation : MulticoreOperation cores}
    (inv : state.held = false ∧ Synchronous state.data) (regular : Regular state operation)
    (stepped : step state operation = some next) : next.held = false ∧ Synchronous next.data := by
  obtain rfl := step_effect inv.1 stepped
  by_cases resets : operation = .reset
  · subst resets
    exact ⟨rfl,reset_synchronous state.data⟩
  · exact ⟨rfl,(effect_synchronous inv.2 regular resets).1⟩

private theorem reached_synchronous {calls : List (MulticoreOperation cores)} {state : Guarded (Times cores)}
    (executed : Runs.run step fresh calls = some state) (regular : Runs.Meets step Regular fresh calls) :
    state.held = false ∧ Synchronous state.data :=
  Runs.invariant_of_meets (fun _ _ _ inv ok stepped => step_kept inv ok stepped)
    ⟨rfl,synchronous_fresh⟩ regular executed

/-- In every run of regular calls the global time is the latest local time. A next regular call
    returns; unless it is a reset no time goes back; a synchronising one leaves every local time at
    the old latest time plus the duration; and time of an unknown core goes to exactly one core,
    which was an oldest one. -/
theorem global_is_latest (calls : List (MulticoreOperation cores)) (state : Guarded (Times cores))
    (executed : Runs.run step fresh calls = some state) (regular : Runs.Meets step Regular fresh calls) :
    IsGreatest (Set.range state.data.localCoreVirtualTimes) state.data.globalVirtualTime ∧
    ∀ operation, Regular state operation → ∃ next, step state operation = some next ∧
      (operation ≠ .reset → NotBefore state.data next.data) ∧
      (∀ forwardTime, operation = .addTimeOfUnknownRealTimeDurationAndSynchronize forwardTime →
        ∀ core, next.data.localCoreVirtualTimes core = state.data.globalVirtualTime + forwardTime) ∧
      (∀ forwardTime, operation = .addTimeOfThreadExecutingAtUnknownTime forwardTime →
        ∃ core, (∀ other, state.data.localCoreVirtualTimes core ≤ state.data.localCoreVirtualTimes other) ∧
          next.data.localCoreVirtualTimes = Function.update state.data.localCoreVirtualTimes core
            (state.data.localCoreVirtualTimes core + forwardTime)) := by
  obtain ⟨free,inv⟩ := reached_synchronous executed regular
  refine ⟨inv.latest,fun operation ok => ⟨_,step_returns free operation,?_,?_,?_⟩⟩
  · exact fun noReset => (effect_synchronous inv ok noReset).2
  · rintro forwardTime rfl core
    obtain ⟨positive,room⟩ := ok
    obtain ⟨first,found⟩ := latest_mem state.data
    have low := inv.nonneg first
    have high := room first
    simp only [MulticoreOperation.effect,updated_local,Times.setAllLocal,latest_eq_global inv]
    rw [← latest_eq_global inv]
    exact longLong_of_range (by omega) (by omega)
  · rintro forwardTime rfl
    obtain ⟨positive,core,room⟩ := ok
    have low := inv.nonneg state.data.oldestCore
    have older := oldestCore_le state.data core
    refine ⟨state.data.oldestCore,oldestCore_le state.data,?_⟩
    simp only [MulticoreOperation.effect,updated_local,Times.setLocal]
    rw [longLong_of_range (by omega) (by omega)]

private def someCalls : List (MulticoreOperation 1) :=
  [.getLocalTimelineActivationTime 4 1,.leapForwardTo 9 0,.addTimeOfThreadExecutingAtUnknownTime 7,.updateGlobalTimeTo 10,
    .addTimeOfUnknownRealTimeDurationAndSynchronize 3]

/-- Two cores at 9 and 4; core 1 takes 7 of unknown time, and a load of 3 brings both to 14. -/
theorem global_is_latest_two_cores : ∃ state : Guarded (Times 1), Runs.run step fresh someCalls = some state ∧
    state.data.globalVirtualTime = 14 ∧
    IsGreatest (Set.range state.data.localCoreVirtualTimes) state.data.globalVirtualTime := by
  obtain ⟨state,executed⟩ : ∃ state, Runs.run step fresh someCalls = some state := ⟨_,rfl⟩
  refine ⟨state,executed,?_,(global_is_latest someCalls state executed (by decide)).1⟩
  cases executed
  decide

/-- On one core: a global time set from outside is ahead of the core, a reset takes both times back,
    and a duration that overflows takes the core's time below 0 and leaves the global time. -/
theorem global_leaves_locals : (∃ state : Guarded (Times 0),
    Runs.run step fresh [.updateGlobalTimeTo 5] = some state ∧
    ¬ IsGreatest (Set.range state.data.localCoreVirtualTimes) state.data.globalVirtualTime) ∧
    (∃ state next : Guarded (Times 0), Runs.run step fresh [.leapForwardTo 7 0] = some state ∧
    step state .reset = some next ∧ ¬ NotBefore state.data next.data) ∧
    ∃ state : Guarded (Times 0), Runs.run step fresh [.leapForwardTo LLONG_MAX 0,
      .addTimeOfUnknownRealTimeDurationAndSynchronize 1] = some state ∧
    ¬ IsGreatest (Set.range state.data.localCoreVirtualTimes) state.data.globalVirtualTime := by
  refine ⟨⟨_,rfl,?_⟩,⟨_,_,rfl,rfl,?_⟩,_,rfl,?_⟩
  · rintro ⟨⟨core,found⟩,-⟩
    revert core
    decide
  · rintro ⟨-,global⟩
    revert global
    decide
  · rintro ⟨⟨core,found⟩,-⟩
    revert core
    decide

end Vexjine.MulticoreRuns
