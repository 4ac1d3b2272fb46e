import Vexjine.ThreadTimers
import Vexjine.Runs

/-!
# The books of virtual time

`StatisticsEnabledVirtualTimelineController` measures every commit by the global time before and after it and has
the difference logged. `PerThreadTime`, which extends `TotalTime`, adds it to the total of the commit's category
and to the category's time of the committing thread. Processes commit concurrently: each of the two snapshots, the
wrapped commit and the logging is one step of a process.
-/

namespace Vexjine.TimeLogging
open Vexjine.VirtualTimeline
open Vexjine.ThreadTimers (Timers)
open Vexjine.Mutexes (Guarded Locking)
open Vexjine.Runs
set_option linter.unusedSectionVars false

/-- The part of a `VexThreadState` that commits and loggers read. -/
structure VexThreadState where
  id : Int32
  name : String
  timers : Timers
  isModelTimedWaiting : Bool := false

/-! ## `PerThreadTime` -/

inductive Category
  | cpu | io | nativeWaiting | waiting | timedWaiting | timedOutIo | modelSimulation | backgroundLoad
  deriving DecidableEq

instance : Fintype Category where
  elems := {.cpu,.io,.nativeWaiting,.waiting,.timedWaiting,.timedOutIo,.modelSimulation,.backgroundLoad}
  complete category := by cases category <;> decide

structure ThreadTimeInfo where
  threadName : String
  startERT : Int
  lastERT : Int
  deriving DecidableEq

namespace ThreadTimeInfo

/-- The constructor of the source, which is given no state for the background load. -/
def new : Option VexThreadState → ThreadTimeInfo
  | some state => ⟨state.name,state.timers.resumedLastAt,0⟩
  | none => ⟨"Background Load",0,0⟩

def setLatestUpdatingTime (info : ThreadTimeInfo) (time : Int) : ThreadTimeInfo := { info with lastERT := time }

end ThreadTimeInfo

/-- A category's total (`cputime`, `iotime`, …), its times by thread (`cputimes`, `iotimes`, …), and what is known
    of each thread. -/
structure PerThreadTime where
  total : Category → Int := fun _ => 0
  times : Category → List (Int32 × Int) := fun _ => []
  threadMapping : Int32 → Option ThreadTimeInfo := fun _ => none

def increaseTimeCounter (counter before after : Int) : Int := counter + (after - before)

/-- Increases the time of a thread that has one. -/
def increaseTimeOf (id : Int32) (before after : Int) : List (Int32 × Int) → List (Int32 × Int)
  | [] => []
  | (other,time) :: rest =>
    if other = id then (other,increaseTimeCounter time before after) :: rest
    else (other,time) :: increaseTimeOf id before after rest

/-- Global events of the system are logged for thread -1. -/
def threadId : Option VexThreadState → Int32
  | some state => state.id
  | none => -1

namespace PerThreadTime
variable (logger : PerThreadTime)

/-- The times by thread, with an entry for this one. A new entry comes with a new record of the thread. -/
def getTimelineOfThread (category : Category) (state : Option VexThreadState) : PerThreadTime :=
  if (logger.times category).lookup (threadId state) = none then
    { logger with
      times := Function.update logger.times category ((threadId state,0) :: logger.times category)
      threadMapping := Function.update logger.threadMapping (threadId state) (some (.new state)) }
  else logger

/-- Fails where the thread has a time but no record. -/
def log (category : Category) (state : Option VexThreadState) (before after : Int) : Option PerThreadTime :=
  let timeline := getTimelineOfThread
    { logger with total := Function.update logger.total category (increaseTimeCounter (logger.total category) before after) }
    category state
  (timeline.threadMapping (threadId state)).map fun threadInfo =>
    { timeline with
      times := Function.update timeline.times category
        (increaseTimeOf (threadId state) before after (timeline.times category))
      threadMapping := Function.update timeline.threadMapping (threadId state)
        (some (threadInfo.setLatestUpdatingTime after)) }

def logCpuTime (state : VexThreadState) : Int → Int → Option PerThreadTime := logger.log .cpu (some state)

def logIoTime (state : VexThreadState) : Int → Int → Option PerThreadTime := logger.log .io (some state)

def logNativeWaitingTime (state : VexThreadState) : Int → Int → Option PerThreadTime :=
  logger.log .nativeWaiting (some state)

def logWaitingTime (state : VexThreadState) : Int → Int → Option PerThreadTime := logger.log .waiting (some state)

def logModelSimulationTime (state : VexThreadState) : Int → Int → Option PerThreadTime :=
  logger.log .modelSimulation (some state)

def logTimedWaitingTime (state : VexThreadState) : Int → Int → Option PerThreadTime :=
  logger.log .timedWaiting (some state)

def logTimedOutIoTime (state : VexThreadState) : Int → Int → Option PerThreadTime :=
  logger.log .timedOutIo (some state)

def logBackgroundLoadExecutionTime : Int → Int → Option PerThreadTime := logger.log .backgroundLoad none

end PerThreadTime

/-! ## Controllers -/

/-- The interface of a controller of timelines, as far as the wrapper calls it. A failed assertion is `none`. -/
structure VirtualTimelineController (Timeline : Type) where
  getGlobalTime : Timeline → Int
  commitCpuTimeProgress : VexThreadState → Timeline → Option (VexThreadState × Timeline)
  commitIoTimeProgress : VexThreadState → Int → Timeline → Option (VexThreadState × Timeline)
  commitTimedWaitingProgress : VexThreadState → Timeline → Option (VexThreadState × Timeline)
  commitNativeWaitingProgress : VexThreadState → Timeline → Option (VexThreadState × Timeline)
  commitBackgroundLoadExecutionTime : Int → Timeline → Option Timeline
  commitModelSimulationProgress : VexThreadState → Timeline → Option (VexThreadState × Timeline)
  commitTimedOutIoProgress : VexThreadState → Timeline → Option (VexThreadState × Timeline)

/-- A commit that leaves the thread's timers as they are. -/
private def keeping (method : Timers → Locking (Times 0) Unit) (state : VexThreadState) (timeline : Guarded (Times 0)) :
    Option (VexThreadState × Guarded (Times 0)) :=
  (method state.timers timeline).map fun result => (state,result.2)

/-- `SingleVirtualTimelineController`. -/
def single : VirtualTimelineController (Guarded (Times 0)) where
  getGlobalTime timeline := timeline.data.globalVirtualTime
  commitCpuTimeProgress := keeping ThreadTimers.commitCpuTimeProgress
  commitIoTimeProgress state _ := keeping ThreadTimers.commitIoTimeProgress state
  commitTimedWaitingProgress := keeping ThreadTimers.commitTimedWaitingProgress
  commitNativeWaitingProgress := keeping ThreadTimers.commitNativeWaitingProgress
  commitBackgroundLoadExecutionTime backgroundLoadExecutionTime timeline :=
    ((Single.addTimeOfUnknownRealTimeDurationAndSynchronize backgroundLoadExecutionTime : Locking (Times 0) Unit)
      timeline).map Prod.snd
  commitModelSimulationProgress state timeline :=
    if state.isModelTimedWaiting then some (state,timeline)
    else keeping ThreadTimers.commitCpuTimeProgress state timeline
  commitTimedOutIoProgress _ _ := none

/-! ## `StatisticsEnabledVirtualTimelineController` -/

/-- The methods that commit, with their arguments. -/
inductive Commit (Thread : Type)
  | cpuTimeProgress (t : Thread)
  | ioTimeProgress (t : Thread) (actualIoProgress : Int)
  | timedWaitingProgress (t : Thread)
  | nativeWaitingProgress (t : Thread)
  | backgroundLoadExecutionTime (backgroundLoadExecutionTime : Int)
  | modelSimulationProgress (t : Thread)
  | timedOutIoProgress (t : Thread)
  deriving DecidableEq

/-- Where a process is in a commit: before the first snapshot, and after each step with the times it has read. -/
inductive Phase (Thread : Type)
  | idle
  | starting (commit : Commit Thread) (before : Int)
  | committed (commit : Commit Thread) (before : Int)
  | measured (commit : Commit Thread) (before after : Int)
  deriving DecidableEq

structure State (Process Thread Timeline : Type) where
  timeline : Timeline
  threads : Thread → VexThreadState
  phase : Process → Phase Thread := fun _ => .idle
  timeLogging : PerThreadTime := {}

inductive Event (Process Thread : Type)
  | start (p : Process) (commit : Commit Thread)
  | commit (p : Process)
  | measure (p : Process)
  | log (p : Process)
  /-- Anything else that happens to a thread. -/
  | change (t : Thread) (state : VexThreadState)

variable {Process Thread Timeline : Type} [DecidableEq Process] [DecidableEq Thread]

namespace Commit
variable (controller : VirtualTimelineController Timeline) (threads : Thread → VexThreadState) (timeline : Timeline)

private def ofThread (t : Thread) (method : VexThreadState → Timeline → Option (VexThreadState × Timeline)) :
    Option ((Thread → VexThreadState) × Timeline) :=
  (method (threads t) timeline).map fun result => (Function.update threads t result.1,result.2)

/-- The call of the wrapped controller. -/
def perform : Commit Thread → Option ((Thread → VexThreadState) × Timeline)
  | cpuTimeProgress t => ofThread threads timeline t controller.commitCpuTimeProgress
  | ioTimeProgress t actualIoProgress =>
    ofThread threads timeline t fun state => controller.commitIoTimeProgress state actualIoProgress
  | timedWaitingProgress t => ofThread threads timeline t controller.commitTimedWaitingProgress
  | nativeWaitingProgress t => ofThread threads timeline t controller.commitNativeWaitingProgress
  | backgroundLoadExecutionTime time =>
    (controller.commitBackgroundLoadExecutionTime time timeline).map fun next => (threads,next)
  | modelSimulationProgress t => ofThread threads timeline t controller.commitModelSimulationProgress
  | timedOutIoProgress t => ofThread threads timeline t controller.commitTimedOutIoProgress

def category : Commit Thread → Category
  | cpuTimeProgress _ => .cpu
  | ioTimeProgress .. => .io
  | timedWaitingProgress _ => .timedWaiting
  | nativeWaitingProgress _ => .nativeWaiting
  | backgroundLoadExecutionTime _ => .backgroundLoad
  | modelSimulationProgress _ => .modelSimulation
  | timedOutIoProgress _ => .timedOutIo

/-- The state that the commit is logged for. -/
def logged : Commit Thread → Option VexThreadState
  | cpuTimeProgress t | ioTimeProgress t _ | timedWaitingProgress t | nativeWaitingProgress t
  | modelSimulationProgress t | timedOutIoProgress t => some (threads t)
  | backgroundLoadExecutionTime _ => none

/-- The call of the logger. -/
def log (timeLogging : PerThreadTime) (before after : Int) : Commit Thread → Option PerThreadTime
  | cpuTimeProgress t => timeLogging.logCpuTime (threads t) before after
  | ioTimeProgress t _ => timeLogging.logIoTime (threads t) before after
  | timedWaitingProgress t => timeLogging.logTimedWaitingTime (threads t) before after
  | nativeWaitingProgress t => timeLogging.logNativeWaitingTime (threads t) before after
  | backgroundLoadExecutionTime _ => timeLogging.logBackgroundLoadExecutionTime before after
  | modelSimulationProgress t => timeLogging.logModelSimulationTime (threads t) before after
  | timedOutIoProgress t => timeLogging.logTimedOutIoTime (threads t) before after

theorem log_eq (timeLogging : PerThreadTime) (before after : Int) (commit : Commit Thread) :
    commit.log threads timeLogging before after =
      timeLogging.log commit.category (commit.logged threads) before after := by
  cases commit with
  | cpuTimeProgress _ | ioTimeProgress _ _ | timedWaitingProgress _ | nativeWaitingProgress _
  | backgroundLoadExecutionTime _ | modelSimulationProgress _ | timedOutIoProgress _ => rfl

end Commit

namespace State
variable (state : State Process Thread Timeline)

def setPhase (p : Process) (phase : Phase Thread) : State Process Thread Timeline :=
  { state with phase := Function.update state.phase p phase }

def globalTime (controller : VirtualTimelineController Timeline) : Int := controller.getGlobalTime state.timeline

@[simp] theorem setPhase_phase (p : Process) (phase : Phase Thread) :
    (state.setPhase p phase).phase = Function.update state.phase p phase := rfl

@[simp] theorem setPhase_timeLogging (p : Process) (phase : Phase Thread) :
    (state.setPhase p phase).timeLogging = state.timeLogging := rfl

@[simp] theorem setPhase_globalTime (controller : VirtualTimelineController Timeline) (p : Process)
    (phase : Phase Thread) : (state.setPhase p phase).globalTime controller = state.globalTime controller := rfl

/-- The process has its first snapshot and not its second. -/
def measures (p : Process) : Bool :=
  match state.phase p with
  | .starting .. | .committed .. => true
  | .idle | .measured .. => false

end State

section Steps
variable (controller : VirtualTimelineController Timeline) (state : State Process Thread Timeline)

def step : Event Process Thread → Option (State Process Thread Timeline)
  | .start p commit =>
    match state.phase p with
    | .idle => some (state.setPhase p (.starting commit (state.globalTime controller)))
    | _ => none
  | .commit p =>
    match state.phase p with
    | .starting commit before =>
      (commit.perform controller state.threads state.timeline).map fun result =>
        { state.setPhase p (.committed commit before) with threads := result.1,timeline := result.2 }
    | _ => none
  | .measure p =>
    match state.phase p with
    | .committed commit before => some (state.setPhase p (.measured commit before (state.globalTime controller)))
    | _ => none
  | .log p =>
    match state.phase p with
    | .measured commit before after =>
      (commit.log state.threads state.timeLogging before after).map fun timeLogging =>
        { state.setPhase p .idle with timeLogging }
    | _ => none
  | .change t thread => some { state with threads := Function.update state.threads t thread }

/-! ## The condition -/

/-- The commit leaves the global time where it is. -/
def Still (commit : Commit Thread) : Prop :=
  ∀ result ∈ commit.perform controller state.threads state.timeline,
    controller.getGlobalTime result.2 = state.globalTime controller

/-- No other process measures a commit that moves the global time. -/
def MovesAlone (p : Process) : Phase Thread → Prop
  | .starting commit _ => Still controller state commit ∨ ∀ q, q ≠ p → state.measures q = false
  | .idle | .committed .. | .measured .. => True

/-- A thread that is logged for the first time in a category has no record yet, or one with the same beginning. -/
def KeepsBeginning : Phase Thread → Prop
  | .measured commit _ _ =>
    (state.timeLogging.times commit.category).lookup (threadId (commit.logged state.threads)) = none →
      ∀ info ∈ state.timeLogging.threadMapping (threadId (commit.logged state.threads)),
        info.startERT = (ThreadTimeInfo.new (commit.logged state.threads)).startERT
  | .idle | .starting .. | .committed .. => True

def Sound : Event Process Thread → Prop
  | .commit p => MovesAlone controller state p (state.phase p)
  | .log p => KeepsBeginning state (state.phase p)
  | .start .. | .measure _ | .change .. => True

instance (commit : Commit Thread) : Decidable (Still controller state commit) :=
  inferInstanceAs (Decidable (∀ result ∈ commit.perform controller state.threads state.timeline,_))

instance [Fintype Process] (p : Process) : (phase : Phase Thread) → Decidable (MovesAlone controller state p phase)
  | .starting .. => inferInstanceAs (Decidable (_ ∨ _))
  | .idle | .committed .. | .measured .. => .isTrue trivial

instance : (phase : Phase Thread) → Decidable (KeepsBeginning state phase)
  | .measured .. => inferInstanceAs (Decidable (_ → _))
  | .idle | .starting .. | .committed .. => .isTrue trivial

instance [Fintype Process] : (event : Event Process Thread) → Decidable (Sound controller state event)
  | .commit p => inferInstanceAs (Decidable (MovesAlone controller state p _))
  | .log _ => inferInstanceAs (Decidable (KeepsBeginning state _))
  | .start .. | .measure _ | .change .. => .isTrue trivial

/-- No commit is under way and nothing has been logged. -/
structure State.Fresh : Prop where
  idle : ∀ p, state.phase p = .idle
  empty : state.timeLogging = {}

end Steps

/-! ## What the logger adds -/

section Logger
variable {logger next : PerThreadTime} {category : Category} {state : Option VexThreadState} {before after : Int}

private theorem sum_increaseTimeOf {id : Int32} {times : List (Int32 × Int)} (found : times.lookup id ≠ none) :
    ((increaseTimeOf id before after times).map Prod.snd).sum = (times.map Prod.snd).sum + (after - before) := by
  induction times with
  | nil => exact absurd rfl found
  | cons entry rest ih =>
    rcases entry with ⟨other,time⟩
    by_cases same : other = id
    · simp only [increaseTimeOf,if_pos same,List.map_cons,List.sum_cons,increaseTimeCounter]
      omega
    · have later : rest.lookup id ≠ none := by
        rwa [List.lookup_cons,beq_false_of_ne (Ne.symm same)] at found
      simp only [increaseTimeOf,if_neg same,List.map_cons,List.sum_cons,ih later]
      omega

private theorem lookup_increaseTimeOf (id other : Int32) (times : List (Int32 × Int)) :
    (increaseTimeOf id before after times).lookup other = none ↔ times.lookup other = none := by
  induction times with
  | nil => rfl
  | cons entry rest ih =>
    rcases entry with ⟨key,time⟩
    by_cases same : key = id
    · simp only [increaseTimeOf,if_pos same,List.lookup_cons]
      cases other == key <;> simp
    · simp only [increaseTimeOf,if_neg same,List.lookup_cons]
      cases other == key
      · exact ih
      · simp

/-- Each thread that has a time has a record. -/
def Recorded (logger : PerThreadTime) : Prop :=
  ∀ category id, (logger.times category).lookup id ≠ none → logger.threadMapping id ≠ none

/-- The times of a category sum to its total. -/
def Sums (logger : PerThreadTime) : Prop :=
  ∀ category, ((logger.times category).map Prod.snd).sum = logger.total category

variable (logger category state) in
@[simp] theorem getTimelineOfThread_total : (logger.getTimelineOfThread category state).total = logger.total := by
  unfold PerThreadTime.getTimelineOfThread
  split <;> rfl

variable (logger category state) in
private theorem getTimelineOfThread_found :
    ((logger.getTimelineOfThread category state).times category).lookup (threadId state) ≠ none := by
  unfold PerThreadTime.getTimelineOfThread
  split
  case isTrue => simp
  case isFalse found => exact found

variable (logger category state) in
private theorem getTimelineOfThread_sum (other : Category) :
    (((logger.getTimelineOfThread category state).times other).map Prod.snd).sum =
      ((logger.times other).map Prod.snd).sum := by
  unfold PerThreadTime.getTimelineOfThread
  split
  case isTrue =>
    by_cases same : other = category
    · subst same
      simp
    · simp [Function.update_of_ne same]
  case isFalse => rfl

private theorem getTimelineOfThread_recorded (recorded : Recorded logger) :
    Recorded (logger.getTimelineOfThread category state) := by
  intro other id found
  unfold PerThreadTime.getTimelineOfThread at found ⊢
  split at found
  case isFalse present =>
    rw [if_neg present]
    exact recorded other id found
  case isTrue absent =>
    rw [if_pos absent]
    show Function.update logger.threadMapping (threadId state) (some (.new state)) id ≠ none
    by_cases mine : id = threadId state
    · simp [mine]
    · rw [Function.update_of_ne mine]
      apply recorded other id
      by_cases same : other = category
      · subst same
        simpa [List.lookup_cons,beq_false_of_ne mine] using found
      · simpa [Function.update_of_ne same] using found

/-- The first part of `log`. -/
private def raised (logger : PerThreadTime) (category : Category) (before after : Int) : PerThreadTime :=
  { logger with total := Function.update logger.total category (increaseTimeCounter (logger.total category) before after) }

private theorem log_eq_some :
    logger.log category state before after = some next ↔
      ∃ info, ((raised logger category before after).getTimelineOfThread category state).threadMapping (threadId state) =
        some info ∧
      { (raised logger category before after).getTimelineOfThread category state with
        times := Function.update ((raised logger category before after).getTimelineOfThread category state).times category
          (increaseTimeOf (threadId state) before after
            (((raised logger category before after).getTimelineOfThread category state).times category))
        threadMapping := Function.update
          ((raised logger category before after).getTimelineOfThread category state).threadMapping (threadId state)
          (some (info.setLatestUpdatingTime after)) } = next :=
  Option.map_eq_some_iff

theorem log_total (logged : logger.log category state before after = some next) :
    next.total = Function.update logger.total category (logger.total category + (after - before)) := by
  obtain ⟨_,_,rfl⟩ := log_eq_some.mp logged
  exact getTimelineOfThread_total _ _ _

theorem log_sums (sums : Sums logger) (logged : logger.log category state before after = some next) : Sums next := by
  intro other
  have total := log_total logged
  obtain ⟨_,_,rfl⟩ := log_eq_some.mp logged
  rw [total]
  by_cases same : other = category
  · subst same
    simp only [Function.update_self]
    rw [sum_increaseTimeOf (getTimelineOfThread_found _ _ _),getTimelineOfThread_sum]
    exact congrArg (· + (after - before)) (sums other)
  · simp only [Function.update_of_ne same]
    rw [getTimelineOfThread_sum]
    exact sums other

theorem log_recorded (recorded : Recorded logger) (logged : logger.log category state before after = some next) :
    Recorded next := by
  have kept : Recorded ((raised logger category before after).getTimelineOfThread category state) :=
    getTimelineOfThread_recorded recorded
  obtain ⟨info,_,rfl⟩ := log_eq_some.mp logged
  intro other id found
  by_cases mine : id = threadId state
  · simp [mine]
  · simp only [Function.update_of_ne mine]
    apply kept other id
    by_cases same : other = category
    · subst same
      intro missing
      apply found
      simpa using (lookup_increaseTimeOf (threadId state) id _).mpr missing
    · simpa [Function.update_of_ne same] using found

/-- Logging never fails: the thread has a record by then. -/
theorem log_ne_none (recorded : Recorded logger) : logger.log category state before after ≠ none := by
  have kept : Recorded ((raised logger category before after).getTimelineOfThread category state) :=
    getTimelineOfThread_recorded recorded
  obtain ⟨info,present⟩ := Option.ne_none_iff_exists'.mp
    (kept category (threadId state) (getTimelineOfThread_found _ _ _))
  rw [log_eq_some.mpr ⟨info,present,rfl⟩]
  exact Option.some_ne_none _

/-- The records of the others are kept, and the thread's keeps its beginning unless its category is new. -/
theorem log_record (logged : logger.log category state before after = some next) :
    (∀ id, id ≠ threadId state → next.threadMapping id = logger.threadMapping id) ∧
      ∃ info, next.threadMapping (threadId state) = some info ∧
        (((logger.times category).lookup (threadId state) = none ∧ info.startERT = (ThreadTimeInfo.new state).startERT) ∨
          ∃ old, logger.threadMapping (threadId state) = some old ∧ info.startERT = old.startERT) := by
  obtain ⟨info,present,rfl⟩ := log_eq_some.mp logged
  unfold PerThreadTime.getTimelineOfThread at present ⊢
  have same : (raised logger category before after).times = logger.times := rfl
  rw [same] at present ⊢
  by_cases absent : (logger.times category).lookup (threadId state) = none
  · rw [if_pos absent] at present ⊢
    replace present : info = .new state := by simpa [eq_comm] using present
    refine ⟨?_,info.setLatestUpdatingTime after,Function.update_self _ _ _,Or.inl ⟨absent,by rw [present]; rfl⟩⟩
    intro id other
    simp [Function.update_of_ne other,raised]
  · rw [if_neg absent] at present ⊢
    refine ⟨?_,info.setLatestUpdatingTime after,Function.update_self _ _ _,Or.inr ⟨info,present,rfl⟩⟩
    intro id other
    simp [Function.update_of_ne other,raised]

end Logger

/-! ## The books of a run -/

/-- What a process will log, as far as it has been measured by now. -/
def pending (now : Int) : Phase Thread → Int
  | .idle | .starting .. => 0
  | .committed _ before => now - before
  | .measured _ before after => after - before

@[simp] theorem pending_idle (now : Int) : pending now (.idle : Phase Thread) = 0 := rfl

@[simp] theorem pending_starting (now before : Int) (commit : Commit Thread) :
    pending now (.starting commit before) = 0 := rfl

@[simp] theorem pending_committed (now before : Int) (commit : Commit Thread) :
    pending now (.committed commit before) = now - before := rfl

@[simp] theorem pending_measured (now before after : Int) (commit : Commit Thread) :
    pending now (.measured commit before after) = after - before := rfl

/-- The logged times and what is still to be logged make up the advance of the global time. -/
structure Books (controller : VirtualTimelineController Timeline) (origin : Int)
    (state : State Process Thread Timeline) : Prop where
  current : ∀ p commit before, state.phase p = .starting commit before → before = state.globalTime controller
  balance : ∃ active : Finset Process, (∀ p ∉ active, state.phase p = .idle) ∧
    ∑ category, state.timeLogging.total category + ∑ p ∈ active, pending (state.globalTime controller) (state.phase p) =
      state.globalTime controller - origin
  sums : Sums state.timeLogging
  recorded : Recorded state.timeLogging

section Runs
variable {controller : VirtualTimelineController Timeline} {origin : Int} {state next last : State Process Thread Timeline}
  {event : Event Process Thread}

/-- A process whose phase changes is or becomes one of those that are not idle. -/
private theorem balance_setPhase (p : Process) (phase : Phase Thread) (later : Int) {logged now advance : Int}
    {phases : Process → Phase Thread}
    (balance : ∃ active : Finset Process, (∀ q ∉ active, phases q = .idle) ∧
      logged + ∑ q ∈ active, pending now (phases q) = advance)
    (others : ∀ q, q ≠ p → pending later (phases q) = pending now (phases q)) :
    ∃ active : Finset Process, (∀ q ∉ active, Function.update phases p phase q = .idle) ∧
      logged + ∑ q ∈ active, pending later (Function.update phases p phase q) =
        advance + pending later phase - pending now (phases p) := by
  obtain ⟨active,idle,balance⟩ := balance
  refine ⟨insert p active,?_,?_⟩
  · intro q outside
    rw [Finset.mem_insert,not_or] at outside
    rw [Function.update_of_ne outside.1]
    exact idle q outside.2
  · have whole : ∑ q ∈ active, pending now (phases q) = ∑ q ∈ insert p active, pending now (phases q) := by
      by_cases member : p ∈ active
      · rw [Finset.insert_eq_of_mem member]
      · rw [Finset.sum_insert member,idle p member]
        simp [pending]
    have split_now := Finset.add_sum_erase (insert p active) (fun q => pending now (phases q))
      (Finset.mem_insert_self p active)
    have split_later := Finset.add_sum_erase (insert p active)
      (fun q => pending later (Function.update phases p phase q)) (Finset.mem_insert_self p active)
    have rest : ∑ q ∈ (insert p active).erase p, pending later (Function.update phases p phase q) =
        ∑ q ∈ (insert p active).erase p, pending now (phases q) := by
      apply Finset.sum_congr rfl
      intro q member
      have differs : q ≠ p := (Finset.mem_erase.mp member).1
      rw [Function.update_of_ne differs,others q differs]
    simp only [Function.update_self] at split_later
    omega

private theorem measures_of_starting {q : Process} {commit : Commit Thread} {before : Int}
    (starting : state.phase q = .starting commit before) : state.measures q = true := by
  unfold State.measures
  rw [starting]

private theorem pending_of_unmeasured {q : Process} (idle : state.measures q = false) (now later : Int) :
    pending later (state.phase q) = pending now (state.phase q) := by
  unfold State.measures at idle
  cases at_ : state.phase q with
  | idle | starting _ _ | measured _ _ _ => rfl
  | committed _ _ => simp [at_] at idle

private theorem starting_of_update {p q : Process} {phase : Phase Thread} {commit : Commit Thread} {before : Int}
    {phases : Process → Phase Thread} (other : ∀ commit before, phase ≠ .starting commit before)
    (starting : Function.update phases p phase q = .starting commit before) :
    q ≠ p ∧ phases q = .starting commit before := by
  by_cases same : q = p
  · subst same
    rw [Function.update_self] at starting
    exact absurd starting (other commit before)
  · rw [Function.update_of_ne same] at starting
    exact ⟨same,starting⟩

private theorem books_start {p : Process} {commit : Commit Thread} (books : Books controller origin state)
    (idle : state.phase p = .idle) :
    Books controller origin (state.setPhase p (.starting commit (state.globalTime controller))) where
  current q other before starting := by
    rw [State.setPhase_phase] at starting
    by_cases same : q = p
    · subst same
      rw [Function.update_self] at starting
      cases starting
      rfl
    · rw [Function.update_of_ne same] at starting
      exact books.current q other before starting
  balance := by
    have kept := balance_setPhase p (.starting commit (state.globalTime controller)) (state.globalTime controller)
      books.balance (fun _ _ => rfl)
    rw [idle] at kept
    simpa using kept
  sums := books.sums
  recorded := books.recorded

private theorem books_measure {p : Process} {commit : Commit Thread} {before : Int} (books : Books controller origin state)
    (committed : state.phase p = .committed commit before) :
    Books controller origin (state.setPhase p (.measured commit before (state.globalTime controller))) where
  current q other taken starting := by
    have earlier := starting_of_update (fun _ _ => by simp) starting
    exact books.current q other taken earlier.2
  balance := by
    have kept := balance_setPhase p (.measured commit before (state.globalTime controller))
      (state.globalTime controller) books.balance (fun _ _ => rfl)
    rw [committed] at kept
    simpa using kept
  sums := books.sums
  recorded := books.recorded

private theorem books_commit {p : Process} {commit : Commit Thread} {before : Int} {threads : Thread → VexThreadState}
    {timeline : Timeline} (books : Books controller origin state) (starting : state.phase p = .starting commit before)
    (alone : MovesAlone controller state p (state.phase p))
    (performed : commit.perform controller state.threads state.timeline = some (threads,timeline)) :
    Books controller origin { state.setPhase p (.committed commit before) with threads,timeline } := by
  rw [starting] at alone
  have begins : before = state.globalTime controller := books.current p commit before starting
  have others : ∀ q, q ≠ p → pending (controller.getGlobalTime timeline) (state.phase q) =
      pending (state.globalTime controller) (state.phase q) := by
    intro q differs
    rcases alone with still | alone
    · rw [still (threads,timeline) performed]
    · exact pending_of_unmeasured (alone q differs) _ _
  constructor
  case current =>
    intro q other taken later
    obtain ⟨differs,earlier⟩ := starting_of_update (fun _ _ => by simp) later
    rcases alone with still | alone
    · rw [books.current q other taken earlier]
      exact (still (threads,timeline) performed).symm
    · have measures := measures_of_starting earlier
      rw [alone q differs] at measures
      cases measures
  case balance =>
    obtain ⟨active,idle,balance⟩ :=
      balance_setPhase p (.committed commit before) (controller.getGlobalTime timeline) books.balance others
    refine ⟨active,idle,?_⟩
    rw [starting,pending_committed,pending_starting] at balance
    refine balance.trans ?_
    show _ = controller.getGlobalTime timeline - origin
    omega
  case sums => exact books.sums
  case recorded => exact books.recorded

private theorem books_log {p : Process} {commit : Commit Thread} {before after : Int} {timeLogging : PerThreadTime}
    (books : Books controller origin state) (measured : state.phase p = .measured commit before after)
    (logged : commit.log state.threads state.timeLogging before after = some timeLogging) :
    Books controller origin { state.setPhase p .idle with timeLogging } := by
  rw [Commit.log_eq] at logged
  constructor
  case current =>
    intro q other taken later
    have earlier := starting_of_update (fun _ _ => by simp) later
    exact books.current q other taken earlier.2
  case balance =>
    obtain ⟨active,idle,balance⟩ :=
      balance_setPhase p .idle (state.globalTime controller) books.balance (fun _ _ => rfl)
    have total : ∑ category, timeLogging.total category =
        ∑ category, state.timeLogging.total category + (after - before) := by
      rw [log_total logged,Finset.sum_update_of_mem (Finset.mem_univ _)]
      have split := Finset.add_sum_erase Finset.univ state.timeLogging.total (Finset.mem_univ commit.category)
      rw [← Finset.sdiff_singleton_eq_erase] at split
      omega
    refine ⟨active,idle,?_⟩
    rw [measured,pending_idle,pending_measured] at balance
    show ∑ category, timeLogging.total category +
      ∑ q ∈ active, pending (state.globalTime controller) (Function.update state.phase p .idle q) =
        state.globalTime controller - origin
    rw [total]
    omega
  case sums => exact log_sums books.sums logged
  case recorded => exact log_recorded books.recorded logged

/-! ## Steps -/

/-- What a step does, with what it requires. -/
private theorem step_cases (stepped : step controller state event = some next) :
    (∃ p commit, event = .start p commit ∧ state.phase p = .idle ∧
      next = state.setPhase p (.starting commit (state.globalTime controller))) ∨
    (∃ p commit before threads timeline, event = .commit p ∧ state.phase p = .starting commit before ∧
      commit.perform controller state.threads state.timeline = some (threads,timeline) ∧
      next = { state.setPhase p (.committed commit before) with threads,timeline }) ∨
    (∃ p commit before, event = .measure p ∧ state.phase p = .committed commit before ∧
      next = state.setPhase p (.measured commit before (state.globalTime controller))) ∨
    (∃ p commit before after timeLogging, event = .log p ∧ state.phase p = .measured commit before after ∧
      commit.log state.threads state.timeLogging before after = some timeLogging ∧
      next = { state.setPhase p .idle with timeLogging }) ∨
    ∃ t thread, event = .change t thread ∧ next = { state with threads := Function.update state.threads t thread } := by
  cases event with
  | start p commit =>
    cases idle : state.phase p with
    | idle =>
      refine Or.inl ⟨p,commit,rfl,idle,?_⟩
      simpa [step,idle,eq_comm] using stepped
    | starting _ _ | committed _ _ | measured _ _ _ => simp [step,idle] at stepped
  | commit p =>
    cases starting : state.phase p with
    | starting commit before =>
      simp only [step,starting,Option.map_eq_some_iff] at stepped
      obtain ⟨⟨threads,timeline⟩,performed,rfl⟩ := stepped
      exact Or.inr (Or.inl ⟨p,commit,before,threads,timeline,rfl,starting,performed,rfl⟩)
    | idle | committed _ _ | measured _ _ _ => simp [step,starting] at stepped
  | measure p =>
    cases committed : state.phase p with
    | committed commit before =>
      refine Or.inr (Or.inr (Or.inl ⟨p,commit,before,rfl,committed,?_⟩))
      simpa [step,committed,eq_comm] using stepped
    | idle | starting _ _ | measured _ _ _ => simp [step,committed] at stepped
  | log p =>
    cases measured : state.phase p with
    | measured commit before after =>
      simp only [step,measured,Option.map_eq_some_iff] at stepped
      obtain ⟨timeLogging,logged,rfl⟩ := stepped
      exact Or.inr (Or.inr (Or.inr (Or.inl ⟨p,commit,before,after,timeLogging,rfl,measured,logged,rfl⟩)))
    | idle | starting _ _ | committed _ _ => simp [step,measured] at stepped
  | change t thread =>
    refine Or.inr (Or.inr (Or.inr (Or.inr ⟨t,thread,rfl,?_⟩)))
    simpa [step,eq_comm] using stepped

private theorem step_books (books : Books controller origin state) (sound : Sound controller state event)
    (stepped : step controller state event = some next) : Books controller origin next := by
  rcases step_cases stepped with ⟨p,commit,rfl,idle,rfl⟩ | ⟨p,commit,before,threads,timeline,rfl,starting,performed,rfl⟩ |
    ⟨p,commit,before,rfl,committed,rfl⟩ | ⟨p,commit,before,after,timeLogging,rfl,measured,logged,rfl⟩ |
    ⟨t,thread,rfl,rfl⟩
  · exact books_start books idle
  · exact books_commit books starting sound performed
  · exact books_measure books committed
  · exact books_log books measured logged
  · exact ⟨books.current,books.balance,books.sums,books.recorded⟩

/-- A record, once there, keeps its beginning. -/
private theorem step_beginning {id : Int32} {info : ThreadTimeInfo} (sound : Sound controller state event)
    (found : state.timeLogging.threadMapping id = some info) (stepped : step controller state event = some next) :
    ∃ later, next.timeLogging.threadMapping id = some later ∧ later.startERT = info.startERT := by
  rcases step_cases stepped with ⟨p,commit,rfl,idle,rfl⟩ | ⟨p,commit,before,threads,timeline,rfl,starting,performed,rfl⟩ |
    ⟨p,commit,before,rfl,committed,rfl⟩ | ⟨p,commit,before,after,timeLogging,rfl,measured,logged,rfl⟩ |
    ⟨t,thread,rfl,rfl⟩
  case inr.inr.inr.inl =>
    rw [Commit.log_eq] at logged
    obtain ⟨others,later,present,begins⟩ := log_record logged
    by_cases mine : id = threadId (commit.logged state.threads)
    · subst mine
      refine ⟨later,present,?_⟩
      rcases begins with ⟨absent,first⟩ | ⟨old,same,kept⟩
      · have keeps : KeepsBeginning state (state.phase p) := sound
        rw [measured] at keeps
        rw [first,keeps absent info found]
      · rw [found,Option.some.injEq] at same
        rw [kept,same]
    · exact ⟨info,(others id mine).trans found,rfl⟩
  all_goals exact ⟨info,found,rfl⟩

end Runs

/-! ## The law -/

section Law
variable (controller : VirtualTimelineController Timeline)

/-- The process is about to log the first commit of a thread, whose record will begin then. -/
def LogsFirst (state : State Process Thread Timeline) (p : Process) (id : Int32) (beginning : Int) : Prop :=
  ∃ commit before after, state.phase p = .measured commit before after ∧
    id = threadId (commit.logged state.threads) ∧ state.timeLogging.threadMapping id = none ∧
    beginning = (ThreadTimeInfo.new (commit.logged state.threads)).startERT

/-- The books of a run from a fresh start. -/
structure AddUp (start : State Process Thread Timeline) (events : List (Event Process Thread))
    (last : State Process Thread Timeline) : Prop where
  advance : (∀ p, last.phase p = .idle) →
    ∑ category, last.timeLogging.total category = last.globalTime controller - start.globalTime controller
  threads : ∀ category, ((last.timeLogging.times category).map Prod.snd).sum = last.timeLogging.total category
  beginnings : ∀ earlier p later middle id beginning, events = earlier ++ .log p :: later →
    run (step controller) start earlier = some middle → LogsFirst middle p id beginning →
    ∃ info, last.timeLogging.threadMapping id = some info ∧ info.startERT = beginning

variable {controller} {start last : State Process Thread Timeline}

private theorem books_fresh (fresh : start.Fresh) : Books controller (start.globalTime controller) start where
  current p commit before starting := by
    rw [fresh.idle p] at starting
    cases starting
  balance := by
    refine ⟨∅,fun p _ => fresh.idle p,?_⟩
    rw [fresh.empty]
    simp
  sums := by
    rw [fresh.empty]
    intro category
    rfl
  recorded := by
    rw [fresh.empty]
    intro category id found
    exact absurd rfl found

private theorem books_of_run {events : List (Event Process Thread)} (fresh : start.Fresh)
    (executed : run (step controller) start events = some last)
    (sound : Meets (step controller) (Sound controller) start events) :
    Books controller (start.globalTime controller) last :=
  invariant_of_meets (fun _ _ _ books meets stepped => step_books books meets stepped) (books_fresh fresh) sound executed

/-- The logging of the first commit, and what of it is kept in the rest of the run. -/
private theorem beginning_of_run {middle : State Process Thread Timeline} {p : Process} {id : Int32} {beginning : Int}
    {later : List (Event Process Thread)} (first : LogsFirst middle p id beginning)
    (executed : run (step controller) middle (.log p :: later) = some last)
    (sound : Meets (step controller) (Sound controller) middle (.log p :: later)) :
    ∃ info, last.timeLogging.threadMapping id = some info ∧ info.startERT = beginning := by
  obtain ⟨next,stepped,remaining⟩ := (run_cons _ _ _ _).mp executed
  obtain ⟨commit,before,after,measured,rfl,absent,rfl⟩ := first
  have created : ∃ info, next.timeLogging.threadMapping (threadId (commit.logged middle.threads)) = some info ∧
      info.startERT = (ThreadTimeInfo.new (commit.logged middle.threads)).startERT := by
    simp only [step,measured,Option.map_eq_some_iff] at stepped
    obtain ⟨timeLogging,logged,rfl⟩ := stepped
    rw [Commit.log_eq] at logged
    obtain ⟨_,info,present,begins⟩ := log_record logged
    rcases begins with ⟨_,begins⟩ | ⟨old,found,_⟩
    · exact ⟨info,present,begins⟩
    · rw [absent] at found
      cases found
  refine @invariant_of_meets _ _ (step controller) (Sound controller)
    (fun state => ∃ info, state.timeLogging.threadMapping (threadId (commit.logged middle.threads)) = some info ∧
      info.startERT = (ThreadTimeInfo.new (commit.logged middle.threads)).startERT)
    ?_ next last later created (sound.2 next stepped) remaining
  rintro state event other ⟨info,found,begins⟩ meets changed
  obtain ⟨kept,present,same⟩ := step_beginning meets found changed
  exact ⟨kept,present,same.trans begins⟩

/-- Where no commit moves the global time while another process measures one, and no record is made anew with another
    beginning, the books add up. -/
theorem books_add_up (controller : VirtualTimelineController Timeline) (start last : State Process Thread Timeline)
    (events : List (Event Process Thread)) (fresh : start.Fresh)
    (executed : run (step controller) start events = some last)
    (sound : Meets (step controller) (Sound controller) start events) : AddUp controller start events last where
  advance idle := by
    obtain ⟨active,_,balance⟩ := (books_of_run fresh executed sound).balance
    have nothing : ∑ p ∈ active, pending (last.globalTime controller) (last.phase p) = 0 := by
      apply Finset.sum_eq_zero
      intro p _
      rw [idle p,pending_idle]
    omega
  threads := (books_of_run fresh executed sound).sums
  beginnings earlier p later middle id beginning split reached first := by
    subst split
    obtain ⟨same,before,after⟩ := (run_append _ _ _ _).mp executed
    rw [reached,Option.some.injEq] at before
    subst before
    exact beginning_of_run first after (meets_of_append sound reached)

end Law

/-! ## Two threads -/

private def worker (id : Int32) (localTimeSinceLastResume : Int) : VexThreadState :=
  ⟨id,"worker",{ localTimeSinceLastResume },false⟩

private def workers : Bool → VexThreadState
  | false => worker 1 10
  | true => worker 2 15

private def newBooks : State Bool Bool (Guarded (Times 0)) := { timeline := ⟨{},false⟩,threads := workers }

private def completes (p : Bool) (commit : Commit Bool) : List (Event Bool Bool) :=
  [.start p commit,.commit p,.measure p,.log p]

/-- The first thread commits, then the second, and then the first in another category with the same beginning. -/
private def inTurn : List (Event Bool Bool) :=
  completes false (.cpuTimeProgress false) ++ completes true (.cpuTimeProgress true) ++
    completes false (.nativeWaitingProgress false)

private theorem newBooks_fresh : newBooks.Fresh := ⟨fun _ => rfl,rfl⟩

theorem books_add_up_in_turn : ∃ last, run (step single) newBooks inTurn = some last ∧
    AddUp single newBooks inTurn last ∧ ∑ category, last.timeLogging.total category = 25 := by
  obtain ⟨last,executed,checked⟩ := @exists_of_checked _ _ (step single)
    (fun last => decide (∑ category, last.timeLogging.total category = 25)) newBooks inTurn (by decide +kernel)
  exact ⟨last,executed,books_add_up single newBooks last inTurn newBooks_fresh executed (by decide +kernel),
    by simpa using checked⟩

private def overlapping : List (Event Bool Bool) :=
  [.start false (.cpuTimeProgress false),.start true (.cpuTimeProgress true),.commit false,.commit true,
    .measure false,.measure true,.log false,.log true]

private def resumedLater : VexThreadState := ⟨1,"worker",{ resumedLastAt := 100 },false⟩

private def measuring : List (Event Bool Bool) :=
  [.start false (.cpuTimeProgress false),.commit false,.measure false]

private def loggedTwice : List (Event Bool Bool) :=
  .log false :: .change false resumedLater :: completes false (.nativeWaitingProgress false)

/-- Two commits that overlap are both given the advance of both. A thread's record is made anew in every category. -/
theorem books_do_not_add_up :
    (∃ last, run (step single) newBooks overlapping = some last ∧ (∀ p, last.phase p = .idle) ∧
      ∑ category, last.timeLogging.total category ≠ last.globalTime single - newBooks.globalTime single) ∧
    ∃ middle last, run (step single) newBooks measuring = some middle ∧ LogsFirst middle false 1 0 ∧
      run (step single) middle loggedTwice = some last ∧
      ∀ info ∈ last.timeLogging.threadMapping 1, info.startERT ≠ 0 := by
  constructor
  · obtain ⟨last,executed,checked⟩ := @exists_of_checked _ _ (step single)
      (fun last => decide ((∀ p, last.phase p = .idle) ∧
        ∑ category, last.timeLogging.total category ≠ last.globalTime single - newBooks.globalTime single))
      newBooks overlapping (by decide +kernel)
    exact ⟨last,executed,of_decide_eq_true checked⟩
  · obtain ⟨middle,reached,checked⟩ := @exists_of_checked _ _ (step single)
      (fun middle : State Bool Bool (Guarded (Times 0)) => decide (middle.phase false =
          .measured (.cpuTimeProgress false) 0 10 ∧ 1 = (middle.threads false).id ∧ middle.timeLogging.threadMapping 1 = none ∧ 0 = (middle.threads false).timers.resumedLastAt) &&
        (run (step single) middle loggedTwice).any fun last : State Bool Bool (Guarded (Times 0)) =>
          decide (∀ info ∈ last.timeLogging.threadMapping 1, info.startERT ≠ 0))
      newBooks measuring (by decide +kernel)
    rw [Bool.and_eq_true] at checked
    obtain ⟨measured,id,absent,beginning⟩ := of_decide_eq_true checked.1
    obtain ⟨last,executed,overwritten⟩ := exists_of_checked checked.2
    exact ⟨middle,last,reached,⟨_,_,_,measured,id,absent,beginning⟩,executed,of_decide_eq_true overwritten⟩

end Vexjine.TimeLogging
