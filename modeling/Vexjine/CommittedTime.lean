import Vexjine.ThreadTimers
import Vexjine.TimelineRuns

/-!
# Time committed to a single timeline

Threads executed one at a time, beside any number that wait natively and commit
their time when they like. The global time never falls and is at least every
committed timestamp; it is the sum of the committed durations exactly as long as
the native time that the timeline remembers for its next leap is what has been
committed since the resume of the thread that leaps.
-/

namespace Vexjine.CommittedTime
open Vexjine.VirtualTimeline
open Vexjine.ThreadTimers
open Vexjine.Mutexes (Guarded)
open Vexjine.TimelineRuns (longLong_of_range)
set_option linter.unusedSimpArgs false
set_option linter.unusedSectionVars false

/-- The timeline and the threads. No step reads the last four fields: which part of a thread's local time has
    been committed, the native time committed since the last resume, the sum of the committed durations, each
    counted once, and the timestamps of the committed CPU time. -/
structure State (Thread : Type) where
  timeline : Guarded (Times 0)
  timers : Thread → Timers
  running : Option Thread
  nativeWaiting : Thread → Bool
  counted : Thread → Int
  nativeSinceResume : Int
  committed : Int
  timestamps : List Int

def initial (Thread : Type) : State Thread where
  timeline := ⟨{},false⟩
  timers := fun _ => {}
  running := none
  nativeWaiting := fun _ => false
  counted := fun _ => 0
  nativeSinceResume := 0
  committed := 0
  timestamps := []

def State.globalTime {Thread : Type} (state : State Thread) : Int := state.timeline.data.globalVirtualTime

inductive Event (Thread : Type)
  | resumeThread (t : Thread)
  | addLocalTime (t : Thread) (timeAdded : Int)
  | commitCpuTimeProgress (t : Thread)
  | commitNativeWaitingProgress (t : Thread)
  /-- Of the running thread, in its signal handler. -/
  | setNativeWaiting (t : Thread)
  /-- `suspendThread` gives up on the running thread and takes it to wait natively. -/
  | suspendThreadTimesOut (t : Thread)
  | setSuspended (t : Thread)
  deriving DecidableEq

variable {Thread : Type} [DecidableEq Thread]

namespace State
variable (state : State Thread)

def setTimers (t : Thread) (timers : Timers) : State Thread :=
  { state with timers := Function.update state.timers t timers }

def resumeThread (t : Thread) : Option (State Thread) :=
  (updateResumingSuspendedThreadResumedLastTimestamp (state.timers t) state.timeline).map fun result =>
    { state.setTimers t result.1 with
      timeline := result.2
      running := some t
      counted := Function.update state.counted t 0
      nativeSinceResume := 0 }

/-- The duration that is committed is the local time of which no part has been committed. -/
def commit (t : Thread) : State Thread := { state with
  committed := state.committed + ((state.timers t).localTimeSinceLastResume - state.counted t)
  counted := Function.update state.counted t (state.timers t).localTimeSinceLastResume }

def commitCpuTimeProgress (t : Thread) : Option (State Thread) :=
  (ThreadTimers.commitCpuTimeProgress (state.timers t) state.timeline).map fun result =>
    { state.commit t with
      timeline := result.2
      timestamps := (state.timers t).getCurrentVirtualTimestampOfRunningThread :: state.timestamps }

def commitNativeWaitingProgress (t : Thread) : Option (State Thread) :=
  (ThreadTimers.commitNativeWaitingProgress (state.timers t) state.timeline).map fun result =>
    { state.commit t with
      timeline := result.2
      nativeSinceResume := state.nativeSinceResume + (state.timers t).localTimeSinceLastResume }

/-- The thread's own handler sets its local time back. -/
def setNativeWaiting (t : Thread) : State Thread :=
  { state.setTimers t ((state.timers t).setResumedLastAt (state.timers t).estimatedRealTime).getAndResetLocalTime with
    running := none
    nativeWaiting := Function.update state.nativeWaiting t true
    counted := Function.update state.counted t 0 }

end State

/-- One step; `none` where the thread is not at it, or a sum is more than a `long long` holds. -/
def step (state : State Thread) : Event Thread → Option (State Thread)
  | .resumeThread t => if state.running = none ∧ state.nativeWaiting t = false then state.resumeThread t else none
  | .addLocalTime t timeAdded =>
    if (state.running = some t ∨ state.nativeWaiting t = true) ∧ 0 ≤ timeAdded then
      some (state.setTimers t ((state.timers t).addLocalTime timeAdded))
    else none
  | .commitCpuTimeProgress t =>
    if state.running = some t ∧ (state.timers t).getCurrentVirtualTimestampOfRunningThread +
        state.timeline.data.unknownParallelTime ≤ LLONG_MAX then
      state.commitCpuTimeProgress t
    else none
  | .commitNativeWaitingProgress t =>
    if state.nativeWaiting t = true ∧
        state.globalTime + (state.timers t).localTimeSinceLastResume ≤ LLONG_MAX ∧
        state.timeline.data.unknownParallelTime + (state.timers t).localTimeSinceLastResume ≤ LLONG_MAX then
      state.commitNativeWaitingProgress t
    else none
  | .setNativeWaiting t => if state.running = some t then some (state.setNativeWaiting t) else none
  | .suspendThreadTimesOut t =>
    if state.running = some t then
      some { state with running := none,nativeWaiting := Function.update state.nativeWaiting t true }
    else none
  | .setSuspended t =>
    if state.running = some t then some { state with running := none }
    else if state.nativeWaiting t = true then
      some { state with nativeWaiting := Function.update state.nativeWaiting t false }
    else none

/-! ## When the time is counted once -/

/-- The thread that leaps: the native time remembered for the leap is what has been committed since the thread's
    resume, or the thread commits nothing new and no more than that is remembered. The thread that commits native
    time: none of its local time has been committed. -/
structure CountsOnce (state : State Thread) (event : Event Thread) : Prop where
  cpu : ∀ t, event = .commitCpuTimeProgress t →
    state.timeline.data.unknownParallelTime = state.nativeSinceResume ∨
      (state.timers t).localTimeSinceLastResume = state.counted t ∧
      state.timeline.data.unknownParallelTime ≤ state.nativeSinceResume
  native : ∀ t, event = .commitNativeWaitingProgress t → state.counted t = 0

/-- The global time is the sum of the committed durations. -/
def Conserves (state : State Thread) : Prop := state.globalTime = state.committed

variable {state next last : State Thread} {event : Event Thread}

/-! ## Every run -/

/-- The mutex is free between two calls, times are not negative, and the committed timestamps are reached. -/
private structure Sound (state : State Thread) : Prop where
  free : state.timeline.held = false
  global : 0 ≤ state.globalTime
  unknown : 0 ≤ state.timeline.data.unknownParallelTime
  base : ∀ t, 0 ≤ (state.timers t).resumedLastAt
  ert : ∀ t, 0 ≤ (state.timers t).estimatedRealTime
  counted : ∀ t, 0 ≤ state.counted t ∧ state.counted t ≤ (state.timers t).localTimeSinceLastResume
  updates : ∀ t, (state.timers t).dontUpdateToGlobalTime = false
  apart : ∀ t, state.running = some t → state.nativeWaiting t = false
  reached : ∀ time ∈ state.timestamps, time ≤ state.globalTime

private theorem sound_initial : Sound (initial Thread) := by
  constructor <;> simp [initial,State.globalTime]

/-- A leap in range: the timeline and the ghosts afterwards. -/
private theorem commitCpu_effect {t : Thread} (sound : Sound state)
    (fits : (state.timers t).getCurrentVirtualTimestampOfRunningThread + state.timeline.data.unknownParallelTime ≤ LLONG_MAX)
    (committed : state.commitCpuTimeProgress t = some next) :
    next = { state.commit t with
      timeline := ⟨{ state.timeline.data with
        globalVirtualTime := max state.globalTime
          ((state.timers t).getCurrentVirtualTimestampOfRunningThread + state.timeline.data.unknownParallelTime)
        unknownParallelTime := 0 },false⟩
      timestamps := (state.timers t).getCurrentVirtualTimestampOfRunningThread :: state.timestamps } := by
  have stamp : 0 ≤ (state.timers t).getCurrentVirtualTimestampOfRunningThread := by
    have base := sound.base t
    have counted := sound.counted t
    unfold Timers.getCurrentVirtualTimestampOfRunningThread
    omega
  have exact_ := longLong_of_range (add_nonneg stamp sound.unknown) fits
  have timeline : state.timeline = ⟨state.timeline.data,false⟩ := by rw [← sound.free]
  unfold State.commitCpuTimeProgress ThreadTimers.commitCpuTimeProgress at committed
  rw [timeline,run_leapForwardTo,exact_] at committed
  cases committed
  rfl

private theorem commitNative_effect {t : Thread} (sound : Sound state)
    (global : state.globalTime + (state.timers t).localTimeSinceLastResume ≤ LLONG_MAX)
    (unknown : state.timeline.data.unknownParallelTime + (state.timers t).localTimeSinceLastResume ≤ LLONG_MAX)
    (committed : state.commitNativeWaitingProgress t = some next) :
    next = { state.commit t with
      timeline := ⟨{ state.timeline.data with
        globalVirtualTime := state.globalTime + (state.timers t).localTimeSinceLastResume
        unknownParallelTime := state.timeline.data.unknownParallelTime + (state.timers t).localTimeSinceLastResume },false⟩
      nativeSinceResume := state.nativeSinceResume + (state.timers t).localTimeSinceLastResume } := by
  have duration : 0 ≤ (state.timers t).localTimeSinceLastResume := (sound.counted t).1.trans (sound.counted t).2
  have first := longLong_of_range (add_nonneg sound.global duration) global
  have second := longLong_of_range (add_nonneg sound.unknown duration) unknown
  have timeline : state.timeline = ⟨state.timeline.data,false⟩ := by rw [← sound.free]
  unfold State.globalTime at first
  unfold State.commitNativeWaitingProgress ThreadTimers.commitNativeWaitingProgress at committed
  rw [timeline,run_addTimeOfThreadExecutingAtUnknownTime,first,second] at committed
  cases committed
  rfl

private theorem resume_effect {t : Thread} (resumed : state.resumeThread t = some next) :
    next = { state.setTimers t ((state.timers t).updateTimesAfterResuming state.globalTime) with
      running := some t
      counted := Function.update state.counted t 0
      nativeSinceResume := 0 } := by
  cases resumed
  rfl

private theorem commit_counted (sound : Sound state) (t other : Thread) :
    0 ≤ (state.commit t).counted other ∧ (state.commit t).counted other ≤ (state.timers other).localTimeSinceLastResume := by
  by_cases same : other = t
  · subst same
    have counted := sound.counted other
    simp only [State.commit,Function.update_self]
    omega
  · simpa [State.commit,same] using sound.counted other

private theorem step_sound (sound : Sound state) (stepped : step state event = some next) :
    Sound next ∧ state.globalTime ≤ next.globalTime := by
  cases event with
  | resumeThread t =>
    simp only [step,Option.ite_none_right_eq_some] at stepped
    obtain ⟨⟨idle,awake⟩,resumed⟩ := stepped
    obtain rfl := resume_effect resumed
    refine ⟨?_,le_rfl⟩
    obtain ⟨free,global,unknown,base,ert,counted,updates,apart,reached⟩ := sound
    refine ⟨free,global,unknown,?_,?_,?_,?_,?_,reached⟩ <;>
      simp only [State.setTimers,Timers.updateTimesAfterResuming,Function.update_apply] <;> grind
  | addLocalTime t timeAdded =>
    simp only [step,Option.ite_none_right_eq_some,Option.some.injEq] at stepped
    obtain ⟨⟨-,forward⟩,rfl⟩ := stepped
    refine ⟨?_,le_rfl⟩
    obtain ⟨free,global,unknown,base,ert,counted,updates,apart,reached⟩ := sound
    refine ⟨free,global,unknown,?_,?_,?_,?_,apart,reached⟩ <;>
      simp only [State.setTimers,Timers.addLocalTime,Timers.addElapsedTime,Function.update_apply] <;> grind
  | commitCpuTimeProgress t =>
    simp only [step,Option.ite_none_right_eq_some] at stepped
    obtain ⟨⟨runs,fits⟩,committed⟩ := stepped
    obtain rfl := commitCpu_effect sound fits committed
    have stamp : (state.timers t).getCurrentVirtualTimestampOfRunningThread ≤ max state.globalTime
        ((state.timers t).getCurrentVirtualTimestampOfRunningThread + state.timeline.data.unknownParallelTime) :=
      le_max_of_le_right (le_add_of_nonneg_right sound.unknown)
    refine ⟨⟨rfl,le_max_of_le_left sound.global,le_rfl,sound.base,sound.ert,commit_counted sound t,sound.updates,sound.apart,?_⟩,
      le_max_left _ _⟩
    intro time member
    rcases List.mem_cons.mp member with rfl | earlier
    · exact stamp
    · exact (sound.reached time earlier).trans (le_max_left _ _)
  | commitNativeWaitingProgress t =>
    simp only [step,Option.ite_none_right_eq_some] at stepped
    obtain ⟨⟨waits,global,unknown⟩,committed⟩ := stepped
    obtain rfl := commitNative_effect sound global unknown committed
    have duration : 0 ≤ (state.timers t).localTimeSinceLastResume := (sound.counted t).1.trans (sound.counted t).2
    have later : state.globalTime ≤ state.globalTime + (state.timers t).localTimeSinceLastResume :=
      le_add_of_nonneg_right duration
    exact ⟨⟨rfl,sound.global.trans later,add_nonneg sound.unknown duration,sound.base,sound.ert,commit_counted sound t,
      sound.updates,sound.apart,fun time member => (sound.reached time member).trans later⟩,later⟩
  | setNativeWaiting t =>
    simp only [step,Option.ite_none_right_eq_some,Option.some.injEq] at stepped
    obtain ⟨-,rfl⟩ := stepped
    refine ⟨?_,le_rfl⟩
    obtain ⟨free,global,unknown,base,ert,counted,updates,apart,reached⟩ := sound
    refine ⟨free,global,unknown,?_,?_,?_,?_,nofun,reached⟩ <;>
      simp only [State.setNativeWaiting,State.setTimers,Timers.setResumedLastAt,Timers.getAndResetLocalTime,
        Function.update_apply] <;> grind
  | suspendThreadTimesOut t =>
    simp only [step,Option.ite_none_right_eq_some,Option.some.injEq] at stepped
    obtain ⟨-,rfl⟩ := stepped
    exact ⟨⟨sound.free,sound.global,sound.unknown,sound.base,sound.ert,sound.counted,sound.updates,nofun,sound.reached⟩,le_rfl⟩
  | setSuspended t =>
    simp only [step] at stepped
    split at stepped
    · cases stepped
      exact ⟨⟨sound.free,sound.global,sound.unknown,sound.base,sound.ert,sound.counted,sound.updates,nofun,sound.reached⟩,
        le_rfl⟩
    · simp only [Option.ite_none_right_eq_some,Option.some.injEq] at stepped
      obtain ⟨-,rfl⟩ := stepped
      refine ⟨⟨sound.free,sound.global,sound.unknown,sound.base,sound.ert,sound.counted,sound.updates,fun other runs => ?_,
        sound.reached⟩,le_rfl⟩
      by_cases same : other = t
      · simp [same]
      · simpa [same] using sound.apart other runs

/-! ## The sum -/

/-- The running thread was resumed at what the global time is without the commits since then. -/
private def Based (state : State Thread) : Prop := ∀ t, state.running = some t →
  state.globalTime = (state.timers t).resumedLastAt + state.counted t + state.nativeSinceResume

private theorem step_conserves_iff (sound : Sound state) (based : Based state) (conserves : Conserves state)
    (stepped : step state event = some next) : Conserves next ↔ CountsOnce state event := by
  unfold Conserves at conserves ⊢
  cases event with
  | commitCpuTimeProgress t =>
    simp only [step,Option.ite_none_right_eq_some] at stepped
    obtain ⟨⟨runs,fits⟩,committed⟩ := stepped
    have only : CountsOnce state (.commitCpuTimeProgress t) ↔
        state.timeline.data.unknownParallelTime = state.nativeSinceResume ∨
          (state.timers t).localTimeSinceLastResume = state.counted t ∧
          state.timeline.data.unknownParallelTime ≤ state.nativeSinceResume :=
      ⟨fun counts => counts.cpu t rfl,fun once => ⟨fun _ same => by cases same; exact once,nofun⟩⟩
    have base := based t runs
    have counted := (sound.counted t).2
    obtain rfl := commitCpu_effect sound fits committed
    rw [only]
    simp only [State.globalTime,State.commit,Timers.getCurrentVirtualTimestampOfRunningThread] at *
    omega
  | commitNativeWaitingProgress t =>
    simp only [step,Option.ite_none_right_eq_some] at stepped
    obtain ⟨⟨waits,global,unknown⟩,committed⟩ := stepped
    have only : CountsOnce state (.commitNativeWaitingProgress t) ↔ state.counted t = 0 :=
      ⟨fun counts => counts.native t rfl,fun once => ⟨nofun,fun _ same => by cases same; exact once⟩⟩
    obtain rfl := commitNative_effect sound global unknown committed
    rw [only]
    simp only [State.globalTime,State.commit] at *
    omega
  | resumeThread t =>
    simp only [step,Option.ite_none_right_eq_some] at stepped
    obtain rfl := resume_effect stepped.2
    exact ⟨fun _ => ⟨nofun,nofun⟩,fun _ => conserves⟩
  | addLocalTime t _ | setNativeWaiting t | suspendThreadTimesOut t =>
    simp only [step,Option.ite_none_right_eq_some,Option.some.injEq] at stepped
    obtain ⟨-,rfl⟩ := stepped
    exact ⟨fun _ => ⟨nofun,nofun⟩,fun _ => conserves⟩
  | setSuspended t =>
    simp only [step] at stepped
    split at stepped
    · cases stepped
      exact ⟨fun _ => ⟨nofun,nofun⟩,fun _ => conserves⟩
    · simp only [Option.ite_none_right_eq_some,Option.some.injEq] at stepped
      obtain ⟨-,rfl⟩ := stepped
      exact ⟨fun _ => ⟨nofun,nofun⟩,fun _ => conserves⟩

private theorem step_based (sound : Sound state) (based : Based state) (conserves : Conserves state) (kept : Conserves next)
    (stepped : step state event = some next) : Based next := by
  unfold Conserves at conserves kept
  cases event with
  | commitCpuTimeProgress t =>
    simp only [step,Option.ite_none_right_eq_some] at stepped
    obtain ⟨⟨runs,fits⟩,committed⟩ := stepped
    have base := based t runs
    obtain rfl := commitCpu_effect sound fits committed
    intro other same
    obtain rfl : t = other := Option.some.inj (runs.symm.trans same)
    simp only [State.globalTime,State.commit,Function.update_self] at *
    omega
  | commitNativeWaitingProgress t =>
    simp only [step,Option.ite_none_right_eq_some] at stepped
    obtain ⟨⟨waits,global,unknown⟩,committed⟩ := stepped
    obtain rfl := commitNative_effect sound global unknown committed
    intro other runs
    have base := based other runs
    have ne : other ≠ t := fun same => by
      have awake := sound.apart other runs
      rw [same,waits] at awake
      cases awake
    simp only [State.globalTime,State.commit,Function.update_of_ne ne] at *
    omega
  | resumeThread t =>
    simp only [step,Option.ite_none_right_eq_some] at stepped
    obtain rfl := resume_effect stepped.2
    intro other same
    obtain rfl : t = other := Option.some.inj same
    simp [State.globalTime,State.setTimers,Timers.updateTimesAfterResuming,sound.updates t]
  | addLocalTime t timeAdded =>
    simp only [step,Option.ite_none_right_eq_some,Option.some.injEq] at stepped
    obtain ⟨-,rfl⟩ := stepped
    intro other runs
    have base := based other runs
    by_cases same : other = t
    · subst same
      simpa [State.globalTime,State.setTimers,Timers.addLocalTime,Timers.addElapsedTime] using base
    · simpa [State.globalTime,State.setTimers,same] using base
  | setNativeWaiting t | suspendThreadTimesOut t =>
    simp only [step,Option.ite_none_right_eq_some,Option.some.injEq] at stepped
    obtain ⟨-,rfl⟩ := stepped
    exact nofun
  | setSuspended t =>
    simp only [step] at stepped
    split at stepped
    · cases stepped
      exact nofun
    · simp only [Option.ite_none_right_eq_some,Option.some.injEq] at stepped
      obtain ⟨-,rfl⟩ := stepped
      exact based

instance (state : State Thread) (event : Event Thread) : Decidable (CountsOnce state event) :=
  match event with
  | .commitCpuTimeProgress t => decidable_of_iff
      (state.timeline.data.unknownParallelTime = state.nativeSinceResume ∨
        (state.timers t).localTimeSinceLastResume = state.counted t ∧
        state.timeline.data.unknownParallelTime ≤ state.nativeSinceResume)
      ⟨fun once => ⟨fun _ same => by cases same; exact once,nofun⟩,fun counts => counts.cpu t rfl⟩
  | .commitNativeWaitingProgress t => decidable_of_iff (state.counted t = 0)
      ⟨fun once => ⟨nofun,fun _ same => by cases same; exact once⟩,fun counts => counts.native t rfl⟩
  | .resumeThread _ | .addLocalTime _ _ | .setNativeWaiting _ | .suspendThreadTimesOut _ | .setSuspended _ =>
    .isTrue ⟨nofun,nofun⟩

/-- The global time never falls and has reached all committed timestamps; and it is the sum of the committed
    durations after every step of a run exactly if every step counts once. -/
theorem committed_once_iff (events : List (Event Thread)) (last : State Thread)
    (executed : Runs.run step (initial Thread) events = some last) :
    Runs.Meets step (fun state event => ∀ next ∈ step state event, state.globalTime ≤ next.globalTime)
      (initial Thread) events ∧
    (∀ time ∈ last.timestamps, time ≤ last.globalTime) ∧
    (Runs.Meets step (fun state event => ∀ next ∈ step state event, next.globalTime = next.committed)
        (initial Thread) events ↔
      Runs.Meets step CountsOnce (initial Thread) events) := by
  refine ⟨?_,(Runs.invariant (fun _ _ _ sound stepped => (step_sound sound stepped).1) sound_initial executed).reached,?_⟩
  · exact Runs.meets_of_steps (fun _ _ _ sound stepped => (step_sound sound stepped).1)
      (fun _ _ sound _ stepped => (step_sound sound stepped).2) sound_initial events
  · exact @Runs.meets_law_iff _ _ _ _ (fun state => Sound state ∧ Based state ∧ Conserves state) Conserves
      (fun _ _ _ inv kept stepped =>
        ⟨(step_sound inv.1 stepped).1,step_based inv.1 inv.2.1 inv.2.2 kept stepped,kept⟩)
      (fun _ _ _ inv _ stepped => step_conserves_iff inv.1 inv.2.1 inv.2.2 stepped)
      _ last events ⟨sound_initial,nofun,rfl⟩ rfl executed

/-- Thread 2 commits 3, waits natively and commits 7 of its native time. -/
private def nativeWaiter : List (Event Nat) :=
  [.resumeThread 2,.addLocalTime 2 3,.commitCpuTimeProgress 2,.setNativeWaiting 2]

/-- Thread 0 is resumed before the native time is committed, and leaps after it. -/
private def nativeBetween : List (Event Nat) :=
  nativeWaiter ++ [.resumeThread 0,.addLocalTime 0 10,.addLocalTime 2 7,.commitNativeWaitingProgress 2,
    .commitCpuTimeProgress 0]

theorem native_between_counted_once : ∃ last : State Nat, Runs.run step (initial Nat) nativeBetween = some last ∧
    last.globalTime = 20 ∧
    Runs.Meets step (fun state event => ∀ next ∈ step state event, next.globalTime = next.committed)
      (initial Nat) nativeBetween := by
  have checked : (Runs.run step (initial Nat) nativeBetween).any (fun last => decide (last.globalTime = 20)) = true := by
    decide +kernel
  obtain ⟨last,executed,found⟩ := Runs.exists_of_checked checked
  have counts : Runs.Meets step CountsOnce (initial Nat) nativeBetween := by decide +kernel
  exact ⟨last,executed,of_decide_eq_true found,(committed_once_iff _ last executed).2.2.mpr counts⟩

private theorem reaches {events : List (Event Nat)} {globalTime committed : Int}
    (checked : (Runs.run step (initial Nat) events).any
      (fun last => decide (last.globalTime = globalTime ∧ last.committed = committed)) = true) :
    ∃ last, Runs.run step (initial Nat) events = some last ∧ last.globalTime = globalTime ∧ last.committed = committed := by
  obtain ⟨last,executed,found⟩ := Runs.exists_of_checked checked
  exact ⟨last,executed,of_decide_eq_true found⟩

/-- Native time that is committed before the leaping thread is resumed counts twice; CPU time that is committed
    again after native time gets lost; and a thread taken to wait natively commits its CPU time again. -/
theorem committed_time_differs :
    (∃ last, Runs.run step (initial Nat) (nativeWaiter ++ [.addLocalTime 2 7,.commitNativeWaitingProgress 2,
      .resumeThread 0,.addLocalTime 0 10,.commitCpuTimeProgress 0]) = some last ∧
      last.globalTime = 27 ∧ last.committed = 20) ∧
    (∃ last, Runs.run step (initial Nat) (nativeBetween ++ [.addLocalTime 0 5,.commitCpuTimeProgress 0]) = some last ∧
      last.globalTime = 20 ∧ last.committed = 25) ∧
    ∃ last, Runs.run step (initial Nat) [.resumeThread 2,.addLocalTime 2 3,.commitCpuTimeProgress 2,
      .suspendThreadTimesOut 2,.commitNativeWaitingProgress 2] = some last ∧
      last.globalTime = 6 ∧ last.committed = 3 :=
  ⟨reaches (by decide +kernel),reaches (by decide +kernel),reaches (by decide +kernel)⟩

end Vexjine.CommittedTime
