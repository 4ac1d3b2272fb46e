import Vexjine.Leaping
import Vexjine.ThreadTimers
import Vexjine.TimelineRuns

/-!
# Strictly synchronized managers

The scheduler steps of `StrictParallelThreadManager` on every core over one disabling
timeline. A step compares the thread it has popped with the cached global time, asks for a
leap, disables its core and activates it again in separate accesses to the timeline, and
the other cores go on between them. No core resumes a thread too early as long as no other
core is activated between the decision and the resume at a time too long before the
thread's.
-/

namespace Vexjine.StrictSynchronization
open Vexjine.VirtualTimeline Vexjine.Runs
open Vexjine.ThreadTimers (Timers)
open Vexjine.Mutexes (Guarded)
open Vexjine.TimelineRuns (Bounded Forward step_direction raise_local raise_active refreshed_local refreshed_active
  latest_mem le_latest longLong_of_range)
set_option linter.unusedSimpArgs false

variable {cores : Nat}

/-! ## The steps -/

/-- Where the scheduler of a core is in its step, with the thread that it has popped. -/
inductive Phase
  | idle
  | progressing
  | tooFarAhead (state : Timers)
  | refused (state : Timers)
  | everyoneDisabled (state : Timers)
  | leaping (state : Timers)
  | resuming (state : Timers) (validToLeap : Bool)
  deriving DecidableEq

structure System (cores : Nat) where
  timeline : Guarded (Times cores)
  phase : Fin (cores + 1) → Phase
  lastResumed : Fin (cores + 1) → Option Timers

/-- A method of the core's manager up to its next access to the timeline, which is that of the event. The call
    of `isValidToLeapInVirtualTimeTo` may find any memory, registry and clock. -/
inductive Event (cores : Nat)
  | suspendRunningResumeNext (core : Fin (cores + 1))
  | noThreadLeft (core : Fin (cores + 1))
  | leaveThread (core : Fin (cores + 1))
  | resumeModelSimulation (core : Fin (cores + 1)) (state : Timers)
  | resumeThread (core : Fin (cores + 1)) (state : Timers)
  | isValidToLeap (core : Fin (cores + 1)) (memory : Leaping.Memory) (call : Leaping.Call)
  | disableCore (core : Fin (cores + 1))
  | updateResumingSuspendedThreadTimestamp (core : Fin (cores + 1))
  | leapForwardTo (core : Fin (cores + 1))
  | resume (core : Fin (cores + 1))
  | timeline (operation : MulticoreOperation cores)

def getHowFarAheadInVirtualTimeTheThreadIs (state : Timers) (times : Times cores) : Int :=
  longLong (state.estimatedRealTime - times.globalVirtualTime)

def isThreadTooFarAheadInVirtualTime (schedulerTimeslot : Int) (state : Timers) (times : Times cores) : Bool :=
  decide (schedulerTimeslot < getHowFarAheadInVirtualTimeTheThreadIs state times)

def isValidToLeapInVirtualTimeTo (state : Timers) (times : Times cores) (memory : Leaping.Memory) (call : Leaping.Call) :
    Bool :=
  (Leaping.isValidToLeapInVirtualTimeTo memory { call with
    state := { call.state with estimatedRealTime := state.estimatedRealTime }
    globalTime := times.globalVirtualTime }).1

/-- `updateResumingSuspendedThreadResumedLastTimestamp`, with the activation time of the core. -/
def resumedAt (state : Timers) : Answer → Timers
  | .time activationTime => (state.leapForwardTo activationTime).updateTimesAfterResuming activationTime
  | .done | .flag _ => state

namespace System

def start : System cores := ⟨TimelineRuns.fresh,fun _ => .idle,fun _ => none⟩

variable (system : System cores)

def setPhase (core : Fin (cores + 1)) (phase : Phase) : System cores :=
  { system with phase := Function.update system.phase core phase }

def setLastResumed (core : Fin (cores + 1)) (state : Timers) : System cores :=
  { system with lastResumed := Function.update system.lastResumed core (some state) }

/-- A call on the timeline, with its answer. -/
def call (operation : MulticoreOperation cores) : Option (Answer × System cores) :=
  (operation.perform .disabling system.timeline).map fun result => (result.1,{ system with timeline := result.2 })

end System

/-- A core's timeline is activated by its own scheduler only: where it resumes a thread, or simulates a model. -/
def step (schedulerTimeslot : Int) (system : System cores) : Event cores → Option (System cores)
  | .suspendRunningResumeNext core => if system.phase core = .idle then
      (system.call (.shouldBlockCoreProgress schedulerTimeslot core)).map fun result =>
        result.2.setPhase core (if result.1 = .flag true then .idle else .progressing)
    else none
  | .noThreadLeft core => if system.phase core = .progressing then
      (system.call (.disableLocalTimeline core)).map fun result => result.2.setPhase core .idle
    else none
  | .leaveThread core => if system.phase core = .progressing then some (system.setPhase core .idle) else none
  | .resumeModelSimulation core state => if system.phase core = .progressing then
      (system.call (.getLocalTimelineActivationTime state.estimatedRealTime core)).map fun result =>
        result.2.setPhase core .idle
    else none
  | .resumeThread core state => if system.phase core = .progressing then
      some (system.setPhase core
        (if isThreadTooFarAheadInVirtualTime schedulerTimeslot state system.timeline.data then .tooFarAhead state
        else .resuming state false))
    else none
  | .isValidToLeap core memory call => match system.phase core with
    | .tooFarAhead state => some (system.setPhase core
        (if isValidToLeapInVirtualTimeTo state system.timeline.data memory call then .resuming state true
        else .refused state))
    | _ => none
  | .disableCore core => match system.phase core with
    -- a thread that is not resumed is pushed back
    | .refused state => (system.call (.disableLocalTimeline core)).map fun result =>
        result.2.setPhase core (if result.1 = .flag true then .everyoneDisabled state else .idle)
    | _ => none
  | .updateResumingSuspendedThreadTimestamp core => match system.phase core with
    | .everyoneDisabled state =>
      let currentLocalTimelineTime := system.timeline.data.localCoreVirtualTimes core
      let state := state.leapForwardTo currentLocalTimelineTime
      some (system.setPhase core
        (if currentLocalTimelineTime ≠ state.estimatedRealTime then .leaping state else .resuming state false))
    | _ => none
  | .leapForwardTo core => match system.phase core with
    | .leaping state => (system.call (.leapForwardTo state.estimatedRealTime core)).map fun result =>
        result.2.setPhase core (.resuming state false)
    | _ => none
  | .resume core => match system.phase core with
    | .resuming state _ =>
      (system.call (.getLocalTimelineActivationTime state.estimatedRealTime core)).map fun result =>
        (result.2.setLastResumed core (resumedAt state result.1)).setPhase core .idle
    | _ => none
  | .timeline operation => match operation with
    | .getLocalTimelineActivationTime _ _ => none
    | operation => (system.call operation).map Prod.snd

/-! ## What must hold -/

def activeTimes (times : Times cores) : Set Int :=
  { time | ∃ core, times.localCoreActive core = true ∧ times.localCoreVirtualTimes core = time }

/-- A thread that is resumed is at most a timeslot ahead of the oldest active core, unless no other core is active
    or the leap to its time has been permitted. -/
def ResumesInTime (schedulerTimeslot : Int) (system : System cores) (event : Event cores) : Prop :=
  ∀ core state validToLeap oldest, event = .resume core → system.phase core = .resuming state validToLeap →
    IsLeast (activeTimes system.timeline.data) oldest → schedulerTimeslot < state.estimatedRealTime - oldest →
      (∀ other, other ≠ core → system.timeline.data.localCoreActive other = false) ∨ validToLeap = true

/-! ## When it holds -/

/-- The scheduler has decided that its thread may be resumed, and the activation of another core at this time
    comes before the resume. -/
def isDisturbed (schedulerTimeslot time : Int) : Phase → Bool
  | .everyoneDisabled _ | .leaping _ => true
  | .resuming state false => decide (time + schedulerTimeslot < state.estimatedRealTime)
  | .idle | .progressing | .tooFarAhead _ | .refused _ | .resuming _ true => false

/-- The core may be activated for a thread of this time. -/
def DisturbsNobody (schedulerTimeslot : Int) (system : System cores) (core : Fin (cores + 1)) (threadTime : Int) : Prop :=
  ∀ other, other ≠ core → isDisturbed schedulerTimeslot
    (max (system.timeline.data.localCoreVirtualTimes core) threadTime) (system.phase other) = false

instance (schedulerTimeslot : Int) (system : System cores) (core : Fin (cores + 1)) (threadTime : Int) :
    Decidable (DisturbsNobody schedulerTimeslot system core threadTime) :=
  inferInstanceAs (Decidable (∀ _, _))

/-- Times are those of a `long long`, durations are not negative and overflow no local time. -/
def Covered (schedulerTimeslot : Int) (system : System cores) : Event cores → Prop
  | .resumeThread _ state => state.estimatedRealTime ≤ LLONG_MAX
  | .resumeModelSimulation core state => state.estimatedRealTime ≤ LLONG_MAX ∧
      DisturbsNobody schedulerTimeslot system core state.estimatedRealTime
  | .resume core => match system.phase core with
    | .resuming state _ => DisturbsNobody schedulerTimeslot system core state.estimatedRealTime
    | _ => True
  | .timeline operation => match operation with
    | .reset => True
    | operation => Forward system.timeline operation
  | _ => True

instance (schedulerTimeslot : Int) (system : System cores) (event : Event cores) :
    Decidable (Covered schedulerTimeslot system event) := by
  unfold Covered
  split
  · infer_instance
  · infer_instance
  · split <;> infer_instance
  · split <;> infer_instance
  · infer_instance

/-! ## What the calls change -/

section Calls
variable {slot : Int} {system next : System cores} {times moved : Times cores}

/-- No core is activated, and no active one goes back. -/
private structure Later (times next : Times cores) : Prop where
  active : ∀ core, next.localCoreActive core = true → times.localCoreActive core = true
  forward : ∀ core, next.localCoreActive core = true →
    times.localCoreVirtualTimes core ≤ next.localCoreVirtualTimes core
  nonneg : 0 ≤ next.globalVirtualTime

private theorem later_refl (nonneg : 0 ≤ times.globalVirtualTime) : Later times times :=
  ⟨fun _ => id,fun _ _ => le_rfl,nonneg⟩

private theorem refreshed_nonneg (locals : ∀ core, 0 ≤ times.localCoreVirtualTimes core)
    (nonneg : 0 ≤ times.globalVirtualTime) : 0 ≤ times.refreshed.globalVirtualTime := by
  rw [TimelineRuns.refreshed_global]
  split
  · exact (Scans.le_least_iff ..).mpr ⟨by decide,fun core _ _ => locals core⟩
  · exact nonneg

private theorem later_refreshed (later : Later times moved)
    (locals : ∀ core, 0 ≤ moved.refreshed.localCoreVirtualTimes core) : Later times moved.refreshed := by
  rw [refreshed_local] at locals
  refine ⟨?_,?_,refreshed_nonneg locals later.nonneg⟩
  · intro core active
    exact later.active core (by simpa using active)
  · intro core active
    rw [refreshed_local]
    exact later.forward core (by simpa using active)

/-- The calls of others, which activate no core. -/
private theorem later_of_forward {operation : MulticoreOperation cores} {timeline : Guarded (Times cores)}
    (bounded : Bounded timeline.data) (nonneg : 0 ≤ timeline.data.globalVirtualTime) (forward : Forward timeline operation)
    (other : ∀ time core, operation ≠ .getLocalTimelineActivationTime time core)
    (locals : ∀ core, 0 ≤ (operation.effect .disabling timeline.data).localCoreVirtualTimes core) :
    Later timeline.data (operation.effect .disabling timeline.data) := by
  have same : Later timeline.data timeline.data := later_refl nonneg
  cases operation with
  | reset => cases forward
  | updateGlobalTimeTo time => exact later_refreshed same locals
  | leapForwardTo time id =>
    refine later_refreshed ⟨fun core active => by simpa using active,fun core _ => ?_,by simpa using nonneg⟩ locals
    rw [raise_local]
    split
    · next own => exact own ▸ le_max_left _ _
    · exact le_rfl
  | addTimeOfUnknownRealTimeDurationAndSynchronize forwardTime =>
    obtain ⟨positive,room⟩ := forward
    obtain ⟨first,found⟩ := latest_mem timeline.data
    have low := bounded.nonneg first
    have high := room first
    have kept : longLong (timeline.data.latest + forwardTime) = timeline.data.latest + forwardTime :=
      longLong_of_range (by omega) (by omega)
    refine later_refreshed ⟨fun core active => active,fun core _ => ?_,nonneg⟩ locals
    have most := le_latest timeline.data core
    show timeline.data.localCoreVirtualTimes core ≤ longLong (timeline.data.latest + forwardTime)
    omega
  | addTimeOfThreadExecutingAtUnknownTime forwardTime =>
    obtain ⟨positive,room⟩ := forward
    have low := bounded.nonneg timeline.data.oldestCore
    have high := room timeline.data.oldestCore
    have kept : longLong (timeline.data.localCoreVirtualTimes timeline.data.oldestCore + forwardTime) =
        timeline.data.localCoreVirtualTimes timeline.data.oldestCore + forwardTime :=
      longLong_of_range (by omega) high
    refine later_refreshed ⟨fun core active => active,fun core _ => ?_,nonneg⟩ locals
    by_cases own : core = timeline.data.oldestCore
    · subst own
      simp [Times.setLocal,kept,positive]
    · simp [Times.setLocal,own]
  | shouldBlockCoreProgress slot id => exact same
  | disableLocalTimeline id =>
    refine ⟨fun core active => ?_,fun core _ => le_rfl,nonneg⟩
    by_cases own : core = id
    · simp [MulticoreOperation.effect,Times.setActive,own] at active
    · simpa [MulticoreOperation.effect,Times.setActive,own] using active
  | getLocalTimelineActivationTime time id => exact absurd rfl (other time id)
  | getUpdatedGlobalTime => exact later_refreshed same locals

end Calls

/-! ## The invariant -/

def Phase.state : Phase → Option Timers
  | .idle | .progressing => none
  | .tooFarAhead state | .refused state | .everyoneDisabled state | .leaping state | .resuming state _ => some state

/-- What a scheduler goes by that has decided to resume its thread without a leap. -/
def Decided (schedulerTimeslot : Int) (times : Times cores) : Phase → Prop
  | .everyoneDisabled _ | .leaping _ => ∀ core, times.localCoreActive core = false
  | .resuming state false => ∀ core, times.localCoreActive core = true →
      state.estimatedRealTime ≤ times.localCoreVirtualTimes core + schedulerTimeslot
  | .idle | .progressing | .tooFarAhead _ | .refused _ | .resuming _ true => True

structure Sound (schedulerTimeslot : Int) (system : System cores) : Prop where
  free : system.timeline.held = false
  bounded : Bounded system.timeline.data
  nonneg : 0 ≤ system.timeline.data.globalVirtualTime
  range : ∀ core, ∀ state ∈ (system.phase core).state, state.estimatedRealTime ≤ LLONG_MAX
  decided : ∀ core, Decided schedulerTimeslot system.timeline.data (system.phase core)

section Soundness
variable {slot : Int} {system next : System cores} {times moved : Times cores} {phase : Phase}
  {operation : MulticoreOperation cores} {result : Answer × System cores}

private theorem sound_start : Sound slot (System.start : System cores) := by
  have below : (0 : Int) ≤ LLONG_MAX := by decide
  refine ⟨rfl,⟨fun _ => le_rfl,fun _ => below,below,fun _ active => ?_⟩,le_rfl,fun _ state held => ?_,
    fun _ => trivial⟩
  · cases active
  · cases held

private theorem decided_later (later : Later times moved) (decided : Decided slot times phase) :
    Decided slot moved phase := by
  have nobody (inactive : ∀ core, times.localCoreActive core = false) (core : Fin (cores + 1)) :
      moved.localCoreActive core = false := by
    cases active : moved.localCoreActive core with
    | false => rfl
    | true =>
      have := later.active core active
      simp [inactive core] at this
  cases phase with
  | idle | progressing | tooFarAhead _ | refused _ => trivial
  | everyoneDisabled _ | leaping _ => exact nobody decided
  | resuming state validToLeap =>
    cases validToLeap with
    | true => trivial
    | false =>
      intro core active
      have before := decided core (later.active core active)
      have forward := later.forward core active
      omega

/-- A call that returns leaves the rest of the system. -/
private theorem call_eq (free : system.timeline.held = false) (called : system.call operation = some result) :
    result.2 = { system with timeline := ⟨operation.effect .disabling system.timeline.data,false⟩ } ∧
      TimelineRuns.step system.timeline operation = some result.2.timeline := by
  obtain ⟨⟨times,held⟩,phase,lastResumed⟩ := system
  cases free
  obtain ⟨⟨answer,after⟩,executed,rfl⟩ := Option.map_eq_some_iff.mp called
  exact ⟨by rw [effect_of_perform executed],by simp [TimelineRuns.step,executed]⟩

private theorem sound_setPhase (sound : Sound slot system) (core : Fin (cores + 1))
    (range : ∀ state ∈ phase.state, state.estimatedRealTime ≤ LLONG_MAX)
    (decided : Decided slot system.timeline.data phase) : Sound slot (system.setPhase core phase) := by
  refine ⟨sound.free,sound.bounded,sound.nonneg,fun other => ?_,fun other => ?_⟩
  · by_cases own : other = core
    · subst own
      simpa [System.setPhase] using range
    · simpa [System.setPhase,own] using sound.range other
  · by_cases own : other = core
    · subst own
      simpa [System.setPhase] using decided
    · simpa [System.setPhase,own] using sound.decided other

private theorem sound_idle (sound : Sound slot system) (core : Fin (cores + 1)) : Sound slot (system.setPhase core .idle) :=
  sound_setPhase sound core (by rintro _ ⟨⟩) trivial

/-- A call that activates no core. -/
private theorem sound_call (sound : Sound slot system) (called : system.call operation = some result)
    (forward : Forward system.timeline operation)
    (other : ∀ time core, operation ≠ .getLocalTimelineActivationTime time core) :
    Sound slot result.2 ∧ result.2.phase = system.phase := by
  obtain ⟨same,stepped⟩ := call_eq sound.free called
  obtain ⟨free,bounded,-⟩ := step_direction sound.free sound.bounded forward stepped
  rw [same] at bounded ⊢
  have later := later_of_forward sound.bounded sound.nonneg forward other bounded.nonneg
  exact ⟨⟨rfl,bounded,later.nonneg,sound.range,fun core => decided_later later (sound.decided core)⟩,rfl⟩

/-- An activation that disturbs nobody. -/
private theorem decided_activated {id : Fin (cores + 1)} {time : Int} (decided : Decided slot times phase)
    (undisturbed : isDisturbed slot (max (times.localCoreVirtualTimes id) time) phase = false) :
    Decided slot ((times.setActive id true).raise id time).refreshed phase := by
  cases phase with
  | idle | progressing | tooFarAhead _ | refused _ => trivial
  | everyoneDisabled _ | leaping _ => cases undisturbed
  | resuming state validToLeap =>
    cases validToLeap with
    | true => trivial
    | false =>
      have near := of_decide_eq_false undisturbed
      intro core active
      rw [refreshed_local,raise_local]
      split_ifs with own
      · exact not_lt.mp near
      · rw [refreshed_active,raise_active] at active
        exact decided core (by simpa [Times.setActive,own] using active)

private theorem sound_activate {core : Fin (cores + 1)} {time : Int} (sound : Sound slot system) (range : time ≤ LLONG_MAX)
    (nobody : DisturbsNobody slot system core time)
    (called : system.call (.getLocalTimelineActivationTime time core) = some result) :
    Sound slot (result.2.setPhase core .idle) := by
  obtain ⟨same,stepped⟩ := call_eq sound.free called
  have forward : Forward system.timeline (.getLocalTimelineActivationTime time core) := range
  obtain ⟨free,bounded,-⟩ := step_direction sound.free sound.bounded forward stepped
  rw [same] at bounded ⊢
  have locals := bounded.nonneg
  simp only [MulticoreOperation.effect,MulticoreClass.updated,refreshed_local] at locals
  refine ⟨rfl,bounded,refreshed_nonneg locals (by simpa [Times.setActive] using sound.nonneg),fun other => ?_,
    fun other => ?_⟩
  · by_cases own : other = core
    · subst own
      simp [System.setPhase,Phase.state]
    · simpa [System.setPhase,own] using sound.range other
  · by_cases own : other = core
    · subst own
      simp [System.setPhase,Decided]
    · simp only [System.setPhase,Function.update_of_ne own]
      exact decided_activated (sound.decided other) (nobody other own)

/-- The answer that every core is disabled is true when it is given. -/
private theorem inactive_of_answer {core : Fin (cores + 1)} (free : system.timeline.held = false)
    (called : system.call (.disableLocalTimeline core) = some result) (answer : result.1 = .flag true)
    (other : Fin (cores + 1)) : result.2.timeline.data.localCoreActive other = false := by
  obtain ⟨⟨times,held⟩,phase,lastResumed⟩ := system
  cases free
  simp [System.call,MulticoreOperation.perform,MulticoreClass.virtuals,Disabling.disableLocalTimeline,
    run_allInactive] at called
  subst called
  simp at answer
  exact answer other

/-- The comparison with the global time, which no active core is before. -/
private theorem near_of_not_tooFar {state : Timers} (sound : Sound slot system)
    (range : state.estimatedRealTime ≤ LLONG_MAX)
    (near : isThreadTooFarAheadInVirtualTime slot state system.timeline.data = false) :
    Decided slot system.timeline.data (.resuming state false) := by
  intro core active
  have behind := sound.bounded.behind core active
  have nonneg := sound.nonneg
  have within : longLong (state.estimatedRealTime - system.timeline.data.globalVirtualTime) ≤ slot :=
    not_lt.mp (of_decide_eq_false near)
  -- where the difference underflows, the thread is before every core
  have smaller : state.estimatedRealTime - system.timeline.data.globalVirtualTime ≤
      longLong (state.estimatedRealTime - system.timeline.data.globalVirtualTime) := by
    unfold LLONG_MAX at range
    unfold longLong
    by_cases low : -(2 ^ 63) ≤ state.estimatedRealTime - system.timeline.data.globalVirtualTime
    · rw [Int.bmod_eq_of_le (by omega) (by omega)]
    · have := @Int.le_bmod (state.estimatedRealTime - system.timeline.data.globalVirtualTime) (2 ^ 64) (by decide)
      omega
  omega

private theorem sound_reset (sound : Sound slot system) (called : system.call .reset = some result) :
    Sound slot result.2 := by
  obtain ⟨same,-⟩ := call_eq sound.free called
  have later : Later system.timeline.data
      ((MulticoreOperation.reset : MulticoreOperation cores).effect .disabling system.timeline.data) := by
    refine ⟨fun core active => ?_,fun core active => ?_,le_rfl⟩
    · cases active
    · cases active
  have below : (0 : Int) ≤ LLONG_MAX := by decide
  rw [same]
  refine ⟨rfl,⟨fun _ => le_rfl,fun _ => below,below,fun core active => ?_⟩,le_rfl,sound.range,
    fun core => decided_later later (sound.decided core)⟩
  cases active

private theorem step_sound {event : Event cores} (sound : Sound slot system) (covered : Covered slot system event)
    (stepped : step slot system event = some next) : Sound slot next := by
  cases event with
  | suspendRunningResumeNext core =>
    simp only [step,Option.ite_none_right_eq_some,Option.map_eq_some_iff] at stepped
    obtain ⟨-,result,called,rfl⟩ := stepped
    obtain ⟨kept,-⟩ := sound_call sound called trivial (by rintro _ _ ⟨⟩)
    split_ifs
    · exact sound_idle kept core
    · exact sound_setPhase kept core (by rintro _ ⟨⟩) trivial
  | noThreadLeft core =>
    simp only [step,Option.ite_none_right_eq_some,Option.map_eq_some_iff] at stepped
    obtain ⟨-,result,called,rfl⟩ := stepped
    exact sound_idle (sound_call sound called trivial (by rintro _ _ ⟨⟩)).1 core
  | leaveThread core =>
    simp only [step,Option.ite_none_right_eq_some,Option.some.injEq] at stepped
    obtain ⟨-,rfl⟩ := stepped
    exact sound_idle sound core
  | resumeModelSimulation core state =>
    simp only [step,Option.ite_none_right_eq_some,Option.map_eq_some_iff] at stepped
    obtain ⟨-,result,called,rfl⟩ := stepped
    exact sound_activate sound covered.1 covered.2 called
  | resumeThread core state =>
    simp only [step,Option.ite_none_right_eq_some,Option.some.injEq] at stepped
    obtain ⟨-,rfl⟩ := stepped
    have range : state.estimatedRealTime ≤ LLONG_MAX := covered
    split_ifs with far
    · exact sound_setPhase sound core (by simpa [Phase.state] using range) trivial
    · exact sound_setPhase sound core (by simpa [Phase.state] using range)
        (near_of_not_tooFar sound range (by simpa using far))
  | isValidToLeap core memory call =>
    simp only [step] at stepped
    split at stepped
    · next state phase =>
      cases stepped
      have range := sound.range core state (by simp [phase,Phase.state])
      split_ifs
      · exact sound_setPhase sound core (by simpa [Phase.state] using range) trivial
      · exact sound_setPhase sound core (by simpa [Phase.state] using range) trivial
    · cases stepped
  | disableCore core =>
    simp only [step] at stepped
    split at stepped
    · next state phase =>
      obtain ⟨result,called,rfl⟩ := Option.map_eq_some_iff.mp stepped
      obtain ⟨kept,-⟩ := sound_call sound called trivial (by rintro _ _ ⟨⟩)
      split_ifs with answer
      · have range := sound.range core state (by simp [phase,Phase.state])
        exact sound_setPhase kept core (by simpa [Phase.state] using range) (inactive_of_answer sound.free called answer)
      · exact sound_idle kept core
    · cases stepped
  | updateResumingSuspendedThreadTimestamp core =>
    simp only [step] at stepped
    split at stepped
    · next state phase =>
      cases stepped
      have inactive : ∀ other, system.timeline.data.localCoreActive other = false := by
        have decided := sound.decided core
        rwa [phase] at decided
      have range : (state.leapForwardTo (system.timeline.data.localCoreVirtualTimes core)).estimatedRealTime ≤
          LLONG_MAX := by
        have before := sound.range core state (by simp [phase,Phase.state])
        have below := sound.bounded.below core
        unfold Timers.leapForwardTo
        split_ifs
        · exact below
        · exact before
      split_ifs
      · exact sound_setPhase sound core (by simpa [Phase.state] using range) inactive
      · refine sound_setPhase sound core (by simpa [Phase.state] using range) ?_
        intro other active
        simp [inactive other] at active
    · cases stepped
  | leapForwardTo core =>
    simp only [step] at stepped
    split at stepped
    · next state phase =>
      obtain ⟨result,called,rfl⟩ := Option.map_eq_some_iff.mp stepped
      have range := sound.range core state (by simp [phase,Phase.state])
      obtain ⟨kept,same⟩ := sound_call sound called range (by rintro _ _ ⟨⟩)
      refine sound_setPhase kept core (by simpa [Phase.state] using range) ?_
      have inactive := kept.decided core
      rw [same,phase] at inactive
      intro other active
      simp [inactive other] at active
    · cases stepped
  | resume core =>
    simp only [step] at stepped
    split at stepped
    · next state validToLeap phase =>
      obtain ⟨result,called,rfl⟩ := Option.map_eq_some_iff.mp stepped
      have range := sound.range core state (by simp [phase,Phase.state])
      simp only [Covered,phase] at covered
      have kept := sound_activate sound range covered called
      exact ⟨kept.free,kept.bounded,kept.nonneg,kept.range,kept.decided⟩
    · cases stepped
  | timeline operation =>
    cases operation with
    | getLocalTimelineActivationTime time core => cases stepped
    | reset =>
      simp only [step,Option.map_eq_some_iff] at stepped
      obtain ⟨result,called,rfl⟩ := stepped
      exact sound_reset sound called
    | updateGlobalTimeTo _ | leapForwardTo _ _ | addTimeOfUnknownRealTimeDurationAndSynchronize _
    | addTimeOfThreadExecutingAtUnknownTime _ | shouldBlockCoreProgress _ _ | disableLocalTimeline _
    | getUpdatedGlobalTime =>
      simp only [step,Option.map_eq_some_iff] at stepped
      obtain ⟨result,called,rfl⟩ := stepped
      exact (sound_call sound called covered (by rintro _ _ ⟨⟩)).1

private theorem exists_oldest {core : Fin (cores + 1)} (active : times.localCoreActive core = true) :
    ∃ oldest, IsLeast (activeTimes times) oldest ∧ oldest ≤ times.localCoreVirtualTimes core := by
  obtain ⟨first,running,least⟩ := Set.exists_min_image { other | times.localCoreActive other = true }
    times.localCoreVirtualTimes (Set.toFinite _) ⟨core,active⟩
  refine ⟨times.localCoreVirtualTimes first,⟨⟨first,running,rfl⟩,?_⟩,least core active⟩
  rintro time ⟨other,active,rfl⟩
  exact least other active

/-- A core that resumes its thread too long before that of another, which has been found near enough, makes the other's
    resume one too early. -/
theorem too_early_of_disturbed {id other : Fin (cores + 1)} {first second : Timers} {validToLeap : Bool}
    (sound : Sound slot system) (resumes : system.phase id = .resuming first validToLeap)
    (stepped : step slot system (.resume id) = some next) (different : id ≠ other)
    (waits : system.phase other = .resuming second false)
    (before : max (system.timeline.data.localCoreVirtualTimes id) first.estimatedRealTime + slot <
      second.estimatedRealTime) : ¬ ResumesInTime slot next (.resume other) := by
  simp only [step,resumes,Option.map_eq_some_iff] at stepped
  obtain ⟨result,called,rfl⟩ := stepped
  obtain ⟨same,-⟩ := call_eq sound.free called
  rw [same]
  intro inTime
  have active : (((system.timeline.data.setActive id true).raise id first.estimatedRealTime).refreshed).localCoreActive id =
      true := by simp [Times.setActive]
  have time : (((system.timeline.data.setActive id true).raise id first.estimatedRealTime).refreshed).localCoreVirtualTimes
      id = max (system.timeline.data.localCoreVirtualTimes id) first.estimatedRealTime := by simp [Times.setActive]
  obtain ⟨oldest,least,older⟩ := exists_oldest active
  have phase : Function.update system.phase id Phase.idle other = .resuming second false := by
    rw [Function.update_of_ne different.symm,waits]
  rcases inTime other second false oldest rfl phase least (by omega) with alone | valid
  · exact Bool.false_ne_true ((alone id different).symm.trans active)
  · cases valid

private theorem inTime_of_sound (sound : Sound slot system) (event : Event cores) : ResumesInTime slot system event := by
  rintro core state validToLeap oldest rfl phase ⟨⟨first,active,rfl⟩,-⟩ late
  cases validToLeap with
  | true => exact Or.inr rfl
  | false =>
    have decided := sound.decided core
    rw [phase] at decided
    have near := decided first active
    omega

end Soundness

/-! ## The theorem -/

/-- In a run whose steps are covered no thread is resumed too early. -/
theorem resumes_in_time (schedulerTimeslot : Int) (events : List (Event cores))
    (covered : Meets (step schedulerTimeslot) (Covered schedulerTimeslot) .start events) :
    Meets (step schedulerTimeslot) (ResumesInTime schedulerTimeslot) .start events :=
  meets_of_invariant (fun _ _ _ sound ok stepped => step_sound sound ok stepped)
    (fun _ event sound _ => inTime_of_sound sound event) sound_start covered

private def suspendedAt (estimatedRealTime : Int) : Leaping.Registered where
  toVexThreadState := (VexThreadState.init 0).setSuspended
  estimatedRealTime := estimatedRealTime
  localTime := 0
  ioCPUTime := 0
  executingPossiblyBlockingIo := false
  threadSystemStateBlocked := false

/-- A leap from 0 to 100, which a thread that is suspended at 0 does not permit. -/
private def leapOverThread : Leaping.Call := ⟨suspendedAt 100,⟨[suspendedAt 0,suspendedAt 100],0,true⟩,0,0,0⟩

/-- Core 0 pushes its thread at 100 back until core 1 has come to 95. -/
private def catchesUp : List (Event 1) :=
  [.suspendRunningResumeNext 1,.resumeThread 1 { estimatedRealTime := 0 },.resume 1,.suspendRunningResumeNext 0,
    .resumeThread 0 { estimatedRealTime := 100 },.isValidToLeap 0 {} leapOverThread,.disableCore 0,
    .timeline (.leapForwardTo 95 1),.suspendRunningResumeNext 0,.resumeThread 0 { estimatedRealTime := 100 },.resume 0]

theorem resumes_in_time_caught_up : (∃ last : System 1, run (step 10) .start catchesUp = some last ∧
    (last.lastResumed 0).isSome = true) ∧ Meets (step 10) (ResumesInTime 10) (.start : System 1) catchesUp := by
  obtain ⟨last,executed,resumed⟩ := @exists_of_checked _ _ (step 10) (fun last : System 1 => (last.lastResumed 0).isSome)
    .start catchesUp (by decide +kernel)
  exact ⟨⟨last,executed,resumed⟩,resumes_in_time 10 catchesUp (by decide +kernel)⟩

/-- Core 0 finds every core disabled, and its thread is at 100; core 1 resumes one at 0 before core 0 does. -/
private def overtaken : List (Event 1) :=
  [.suspendRunningResumeNext 0,.resumeThread 0 { estimatedRealTime := 100 },.isValidToLeap 0 {} leapOverThread,
    .disableCore 0,.updateResumingSuspendedThreadTimestamp 0,.leapForwardTo 0,.suspendRunningResumeNext 1,
    .resumeThread 1 { estimatedRealTime := 0 },.resume 1]

/-- Core 0 resumes its thread, ten timeslots ahead of the only active core and without a permitted leap. -/
theorem overtaken_resume_too_early : ∃ system next : System 1, run (step 10) .start overtaken = some system ∧
    step 10 system (.resume 0) = some next ∧ ¬ ResumesInTime 10 system (.resume 0) := by
  obtain ⟨system,executed,checked⟩ := @exists_of_checked _ _ (step 10)
    (fun system : System 1 => decide (system.phase 0 = .resuming { estimatedRealTime := 100 } false ∧
      system.timeline.data.localCoreActive 0 = false ∧ system.timeline.data.localCoreActive 1 = true ∧
      system.timeline.data.localCoreVirtualTimes 1 = 0) && (step 10 system (.resume 0)).isSome) .start overtaken
    (by decide +kernel)
  simp only [Bool.and_eq_true,decide_eq_true_eq,Option.isSome_iff_exists] at checked
  obtain ⟨⟨phase,off,active,behind⟩,next,resumed⟩ := checked
  refine ⟨system,next,executed,resumed,fun inTime => ?_⟩
  have least : IsLeast (activeTimes system.timeline.data) 0 := by
    refine ⟨⟨1,active,behind⟩,?_⟩
    rintro time ⟨core,running,rfl⟩
    fin_cases core
    · simp [off] at running
    · exact behind.ge
  rcases inTime 0 _ _ 0 rfl phase least (by decide) with alone | valid
  · simp [alone 1 (by decide)] at active
  · cases valid

end Vexjine.StrictSynchronization
