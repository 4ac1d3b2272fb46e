import Vexjine.MethodLogs
import Vexjine.Links

/-!
# The method events of a thread

A thread logs the entries and exits of its methods and adds the times of every
finished call to a measure: to that of the method, or, when it keeps stack traces,
to that of a node in the tree of its calls. The slots of its open calls stay apart
on every run, but only exits of the newest open call keep the next slot at the
depth of the stack.
-/

namespace Vexjine.MethodEvents
open Vexjine.MethodLogs Vexjine.ParentForests Vexjine.Runs

/-! ## Measures -/

/-- The times are the four exclusive and the four inclusive sums. -/
structure PerformanceMeasure where
  methodId : Int
  samples : Nat := 0
  exclusive : Times := 0
  inclusive : Times := 0
  calleeTime : Int := 0
  deriving DecidableEq

/-- `add` and `moreInfo`. -/
def PerformanceMeasure.add (measure : PerformanceMeasure) (sample : Sample) : PerformanceMeasure :=
  { measure with
    samples := measure.samples + 1
    exclusive := measure.exclusive + sample.exclusive
    inclusive := measure.inclusive + sample.inclusive
    calleeTime := measure.calleeTime + sample.calleeTime }

@[simp] theorem PerformanceMeasure.add_methodId (measure : PerformanceMeasure) (sample : Sample) :
    (measure.add sample).methodId = measure.methodId := rfl

/-- A measure in the tree of calls; the parent is the calling method. -/
structure Node where
  measure : PerformanceMeasure
  callingMethod : Option Nat
  subMethods : List Nat := []
  deriving DecidableEq

/-- Pointers to the tree's measures are their indices. -/
structure StackTrace where
  nodes : List Node := []
  rootStackTraceInfos : List Nat := []
  currentStackTraceInfo : Option Nat := none
  deriving DecidableEq

namespace StackTrace
variable (trace : StackTrace)

/-- The method of every node, with the node of its calling method. -/
def shape : List (Int × Option Nat) := trace.nodes.map fun node => (node.measure.methodId,node.callingMethod)

def hasMethodId (methodId : Int) (node : Nat) : Bool := trace.nodes[node]?.any (·.measure.methodId = methodId)

/-- The methods on the way from the node up to its root. -/
def pathOf (node : Option Nat) : List Int := path trace.shape node

def methodAlreadyCalledInStackTrace (methodId : Int) : Bool :=
  methodId ∈ trace.pathOf trace.currentStackTraceInfo

/-- Moves to the node of the method below the current one, which is added if it is missing. -/
def getCurrentStackTraceInfo (methodId : Int) : StackTrace :=
  match trace.currentStackTraceInfo with
  | none =>
    match trace.rootStackTraceInfos.find? (trace.hasMethodId methodId) with
    | some root => { trace with currentStackTraceInfo := some root }
    | none =>
      { nodes := trace.nodes ++ [{ measure := { methodId },callingMethod := none }]
        rootStackTraceInfos := trace.rootStackTraceInfos ++ [trace.nodes.length]
        currentStackTraceInfo := some trace.nodes.length }
  | some current =>
    match ((trace.nodes[current]?.map (·.subMethods)).getD []).find? (trace.hasMethodId methodId) with
    | some child => { trace with currentStackTraceInfo := some child }
    | none =>
      { trace with
        nodes := trace.nodes.modify current (fun node =>
          { node with subMethods := node.subMethods ++ [trace.nodes.length] }) ++
            [{ measure := { methodId },callingMethod := some current }]
        currentStackTraceInfo := some trace.nodes.length }

/-- The exiting call's times are added to the node, and the current node is its parent. -/
def exitAt (node : Nat) (sample : Sample) : StackTrace :=
  { trace with
    nodes := trace.nodes.modify node fun found => { found with measure := found.measure.add sample }
    currentStackTraceInfo := trace.nodes[node]?.bind (·.callingMethod) }

end StackTrace

/-! ## The thread -/

/-- A `StackTraceThreadState` has a tree of its calls, any other thread a measure for each method. -/
structure VexThreadState where
  methodLog : MethodLog := {}
  measures : List PerformanceMeasure := []
  stackTrace : Option StackTrace
  deriving DecidableEq

def initial (stackTraces : Bool) : VexThreadState := { stackTrace := if stackTraces then some {} else none }

/-- The measure of the method, which is added if it is missing, gets the sample. -/
def addToMeasures (methodId : Int) (sample : Sample) (measures : List PerformanceMeasure) : List PerformanceMeasure :=
  if measures.any (·.methodId = methodId) then
    measures.map fun measure => if measure.methodId = methodId then measure.add sample else measure
  else measures ++ [({ methodId } : PerformanceMeasure).add sample]

namespace VexThreadState
variable (thread : VexThreadState)

def logMethodEntry (methodId : Int) (clocks : Times) : VexThreadState :=
  match thread.stackTrace with
  | none => { thread with methodLog := thread.methodLog.logMethodEntry (.setInfo methodId clocks) }
  | some trace =>
    let moved := trace.getCurrentStackTraceInfo methodId
    { thread with
      methodLog := thread.methodLog.logMethodEntry { MethodCallInfo.setInfo methodId clocks with
        recursive := trace.methodAlreadyCalledInStackTrace methodId
        correspondingStackTraceMeasure := moved.currentStackTraceInfo }
      stackTrace := some moved }

/-- The node of the current method's record. -/
def exitingNode : Option Nat :=
  thread.methodLog.currentMethodInfo.bind fun slot => (thread.methodLog.infoAt slot).correspondingStackTraceMeasure

/-- What `logTimesOnMethodExit` adds to `getExitingMethodPerformanceMeasure`. -/
def addToExitingMethodPerformanceMeasure (methodId : Int) (sample : Sample) : VexThreadState :=
  match thread.stackTrace with
  | none => { thread with measures := addToMeasures methodId sample thread.measures }
  | some trace =>
    match thread.exitingNode with
    | none => thread
    | some node => { thread with stackTrace := some (trace.exitAt node sample) }

/-- With the sample of the call that it finishes. -/
def logMethodExit (methodId : Int) (clocks : Times) : VexThreadState × Option Sample :=
  let exited := (thread.methodLog.updateExitingMethodInfo methodId clocks).logMethodExit
  match exited.2 with
  | none => ({ thread with methodLog := exited.1 },none)
  | some sample =>
    ({ thread.addToExitingMethodPerformanceMeasure methodId sample with methodLog := exited.1 },some sample)

end VexThreadState

inductive Event
  | entry (methodId : Int) (clocks : Times)
  | exit (methodId : Int) (clocks : Times)
  deriving DecidableEq

def Event.methodId : Event → Int
  | .entry methodId _ | .exit methodId _ => methodId

def VexThreadState.handle (thread : VexThreadState) : Event → VexThreadState × Option Sample
  | .entry methodId clocks => (thread.logMethodEntry methodId clocks,none)
  | .exit methodId clocks => thread.logMethodExit methodId clocks

def step (thread : VexThreadState) (event : Event) : Option VexThreadState := some (thread.handle event).1

def after (thread : VexThreadState) (events : List Event) : VexThreadState :=
  events.foldl (fun thread event => (thread.handle event).1) thread

/-- No event is refused. -/
theorem run_after (thread : VexThreadState) (events : List Event) :
    run step thread events = some (after thread events) := by
  induction events generalizing thread with
  | nil => rfl
  | cons event rest ih => exact (run_cons thread event rest _).mpr ⟨_,rfl,ih _⟩

/-! ## What an event does to the log -/

namespace VexThreadState
variable {thread : VexThreadState}

theorem logMethodEntry_methodLog (methodId : Int) (clocks : Times) :
    ∃ callinfo : MethodCallInfo, callinfo.methodId = methodId ∧ callinfo.entry = clocks ∧ callinfo.callee = 0 ∧
      (thread.logMethodEntry methodId clocks).methodLog = thread.methodLog.logMethodEntry callinfo := by
  unfold logMethodEntry
  cases thread.stackTrace with
  | none => exact ⟨.setInfo methodId clocks,rfl,rfl,rfl,rfl⟩
  | some trace => exact ⟨_,rfl,rfl,rfl,rfl⟩

theorem logMethodExit_methodLog (methodId : Int) (clocks : Times) :
    (thread.logMethodExit methodId clocks).1.methodLog =
        (thread.methodLog.updateExitingMethodInfo methodId clocks).logMethodExit.1 ∧
      (thread.logMethodExit methodId clocks).2 =
        (thread.methodLog.updateExitingMethodInfo methodId clocks).logMethodExit.2 := by
  simp only [logMethodExit]
  generalize (thread.methodLog.updateExitingMethodInfo methodId clocks).logMethodExit = exited
  obtain ⟨log,sample⟩ := exited
  cases sample <;> exact ⟨rfl,rfl⟩

/-- An exit does to the open calls what it does to the stack of their records. -/
theorem logMethodExit_frames (wf : WellFormed thread.methodLog) (methodId : Int) (clocks : Times) :
    (thread.logMethodExit methodId clocks).1.methodLog.frames =
        (exitFrames (.setInfo methodId clocks) thread.methodLog.frames).1 ∧
      (thread.logMethodExit methodId clocks).2 =
        (exitFrames (.setInfo methodId clocks) thread.methodLog.frames).2 := by
  obtain ⟨log,sample⟩ := thread.logMethodExit_methodLog methodId clocks
  have updated : WellFormed (thread.methodLog.updateExitingMethodInfo methodId clocks) :=
    ⟨wf.increasing,wf.below,wf.stored,wf.top⟩
  have refined := MethodLog.logMethodExit_frames updated
  rw [log,sample]
  exact Prod.ext_iff.mp refined

theorem logMethodExit_stackTrace (methodId : Int) (clocks : Times) :
    (thread.logMethodExit methodId clocks).1.stackTrace = match (thread.logMethodExit methodId clocks).2 with
      | none => thread.stackTrace
      | some sample => (thread.addToExitingMethodPerformanceMeasure methodId sample).stackTrace := by
  simp only [logMethodExit]
  generalize (thread.methodLog.updateExitingMethodInfo methodId clocks).logMethodExit = exited
  obtain ⟨log,sample⟩ := exited
  cases sample <;> rfl

/-- The current method's record is that of the newest open call. -/
theorem exitingNode_eq (wf : WellFormed thread.methodLog) :
    thread.exitingNode = thread.methodLog.frames.head?.bind (·.correspondingStackTraceMeasure) := by
  unfold exitingNode MethodLog.frames
  rw [wf.top]
  cases thread.methodLog.methodStack <;> rfl

end VexThreadState

theorem wellFormed_step {thread next : VexThreadState} {event : Event} (wf : WellFormed thread.methodLog)
    (stepped : step thread event = some next) : WellFormed next.methodLog := by
  cases stepped
  cases event with
  | entry methodId clocks =>
    obtain ⟨callinfo,-,-,-,entered⟩ := thread.logMethodEntry_methodLog methodId clocks
    show WellFormed (thread.logMethodEntry methodId clocks).methodLog
    rw [entered]
    exact MethodLog.logMethodEntry_wellFormed wf callinfo
  | exit methodId clocks =>
    show WellFormed (thread.logMethodExit methodId clocks).1.methodLog
    rw [(thread.logMethodExit_methodLog methodId clocks).1]
    apply MethodLog.logMethodExit_wellFormed
    exact ⟨wf.increasing,wf.below,wf.stored,wf.top⟩

theorem wellFormed_handle {thread : VexThreadState} (wf : WellFormed thread.methodLog) (event : Event) :
    WellFormed (thread.handle event).1.methodLog := wellFormed_step wf rfl

/-! ## The slots of the open calls -/

/-- After the event the open calls have slots of their own, as many as the next one to use says, and an entry
    has kept the records of the calls that were open. -/
structure Separate (thread : VexThreadState) (event : Event) (next : VexThreadState) : Prop where
  increasing : next.methodLog.methodStack.Pairwise (· > ·)
  below : ∀ slot ∈ next.methodLog.methodStack, slot < next.methodLog.nextMethodInfoToUse
  depth : next.methodLog.nextMethodInfoToUse = next.methodLog.methodStack.length
  kept : ∀ methodId clocks, event = .entry methodId clocks →
    ∀ slot ∈ thread.methodLog.methodStack, next.methodLog.infoAt slot = thread.methodLog.infoAt slot

/-- An exit finds no open call, or is of the newest one. -/
def OfNewest (thread : VexThreadState) : Event → Prop
  | .entry _ _ => True
  | .exit methodId _ => ∀ frame ∈ thread.methodLog.frames.head?, frame.methodId = methodId

theorem step_kept {thread next : VexThreadState} (wf : WellFormed thread.methodLog) {methodId : Int} {clocks : Times}
    (stepped : step thread (.entry methodId clocks) = some next) {slot : Nat}
    (live : slot ∈ thread.methodLog.methodStack) : next.methodLog.infoAt slot = thread.methodLog.infoAt slot := by
  cases stepped
  obtain ⟨callinfo,-,-,-,entered⟩ := thread.logMethodEntry_methodLog methodId clocks
  show (thread.logMethodEntry methodId clocks).methodLog.infoAt slot = _
  have used := wf.below slot live
  rw [entered,MethodLog.logMethodEntry_infoAt wf callinfo (Nat.le_of_lt used),if_neg (Nat.ne_of_lt used)]

/-- The next slot stays at the depth of the stack exactly if the event pops no frame without its exit. -/
theorem step_depth_iff {thread next : VexThreadState} {event : Event} (wf : WellFormed thread.methodLog)
    (depth : thread.methodLog.nextMethodInfoToUse = thread.methodLog.methodStack.length)
    (stepped : step thread event = some next) :
    next.methodLog.nextMethodInfoToUse = next.methodLog.methodStack.length ↔ OfNewest thread event := by
  cases stepped
  cases event with
  | entry methodId clocks =>
    obtain ⟨callinfo,-,-,-,entered⟩ := thread.logMethodEntry_methodLog methodId clocks
    show (thread.logMethodEntry methodId clocks).methodLog.nextMethodInfoToUse =
      (thread.logMethodEntry methodId clocks).methodLog.methodStack.length ↔ True
    rw [entered,MethodLog.logMethodEntry_next,MethodLog.logMethodEntry_methodStack wf,List.length_cons,depth]
    exact iff_true_intro rfl
  | exit methodId clocks =>
    show (thread.logMethodExit methodId clocks).1.methodLog.nextMethodInfoToUse =
      (thread.logMethodExit methodId clocks).1.methodLog.methodStack.length ↔
        ∀ frame ∈ thread.methodLog.frames.head?, frame.methodId = methodId
    rw [(thread.logMethodExit_methodLog methodId clocks).1]
    exact MethodLog.logMethodExit_depth_iff depth

theorem separate_iff {thread next : VexThreadState} {event : Event} (wf : WellFormed thread.methodLog)
    (stepped : step thread event = some next) : Separate thread event next ↔
      next.methodLog.nextMethodInfoToUse = next.methodLog.methodStack.length := by
  have later := wellFormed_step wf stepped
  constructor
  · intro separate
    exact separate.depth
  · intro depth
    refine ⟨later.increasing,later.below,depth,?_⟩
    rintro methodId clocks rfl slot live
    exact step_kept wf stepped live

/-- The slots stay apart throughout a run, in both modes, exactly if every exit of it finds the stack empty or
    its own call on top. -/
theorem slots_separate_iff (stackTraces : Bool) (events : List Event) :
    Meets step (fun thread event => ∀ next ∈ step thread event, Separate thread event next) (initial stackTraces)
        events ↔
      Meets step OfNewest (initial stackTraces) events := by
  have start : WellFormed (initial stackTraces).methodLog := wellFormed_init
  have depths := @meets_law_iff _ _ step OfNewest (fun thread => WellFormed thread.methodLog)
    (fun thread => thread.methodLog.nextMethodInfoToUse = thread.methodLog.methodStack.length)
    (fun thread event next wf _ stepped => wellFormed_step wf stepped)
    (fun thread event next wf depth stepped => step_depth_iff wf depth stepped) (initial stackTraces) _ events
    start rfl (run_after (initial stackTraces) events)
  rw [← depths]
  apply meets_congr_of_invariant (fun thread event next wf _ stepped => wellFormed_step wf stepped) _ start
  intro thread event wf
  constructor
  · intro separate next stepped
    exact (separate_iff wf stepped).mp (separate next stepped)
  · intro depth next stepped
    exact (separate_iff wf stepped).mpr (depth next stepped)

/-- An exit of the caller leaves the slot of the callee, whose exit was missed, in use. -/
theorem slot_leaked : ¬ ∀ (stackTraces : Bool) (events : List Event),
    Meets step (fun thread event => ∀ next ∈ step thread event, Separate thread event next) (initial stackTraces)
      events := by
  intro separate
  obtain ⟨-,entered⟩ := separate false [.entry 1 0,.entry 2 0,.exit 1 0]
  obtain ⟨-,called⟩ := entered _ rfl
  obtain ⟨exited,-⟩ := called _ rfl
  have depth := (exited _ rfl).depth
  revert depth
  decide

/-! ## Exits without an open call -/

/-- No open call is of the exiting method. -/
def Spurious (thread : VexThreadState) (methodId : Int) : Prop :=
  ∀ slot ∈ thread.methodLog.methodStack, (thread.methodLog.infoAt slot).methodId ≠ methodId

/-- The open calls, the current method and all measures are what they were, and the next exit of any method is
    measured as it would have been. -/
structure KeepsOpenCalls (thread next : VexThreadState) : Prop where
  methodStack : next.methodLog.methodStack = thread.methodLog.methodStack
  records : ∀ slot, next.methodLog.infoAt slot = thread.methodLog.infoAt slot
  currentMethodInfo : next.methodLog.currentMethodInfo = thread.methodLog.currentMethodInfo
  measures : next.measures = thread.measures
  stackTrace : next.stackTrace = thread.stackTrace
  measured : ∀ methodId clocks, (next.logMethodExit methodId clocks).2 = (thread.logMethodExit methodId clocks).2

/-- The search for the call pops all others. -/
private theorem spurious_exit {thread : VexThreadState} {methodId : Int} (spurious : Spurious thread methodId)
    (clocks : Times) : (thread.logMethodExit methodId clocks).1 = { thread with
      methodLog := { thread.methodLog with
        methodStack := []
        currentMethodInfo := none
        exitingMethodInfo := .setInfo methodId clocks } } := by
  have unmatched : (thread.methodLog.updateExitingMethodInfo methodId clocks).logMethodExit =
      ({ thread.methodLog.updateExitingMethodInfo methodId clocks with methodStack := [],currentMethodInfo := none },none) := by
    rcases @MethodLog.logMethodExitOn_cases (thread.methodLog.updateExitingMethodInfo methodId clocks)
        thread.methodLog.methodStack with ⟨-,emptied⟩ | ⟨above,slot,rest,split,-,same,-⟩
    · exact emptied
    · exact absurd same (spurious slot (by simp [split]))
  simp only [VexThreadState.logMethodExit,unmatched]
  rfl

/-- For all threads and all exits without an open call of their method: the open calls are kept exactly if there is
    none. -/
theorem spurious_exit_keeps_iff (thread : VexThreadState) (methodId : Int) (clocks : Times)
    (spurious : Spurious thread methodId) : KeepsOpenCalls thread (thread.logMethodExit methodId clocks).1 ↔
      thread.methodLog.methodStack = [] ∧ thread.methodLog.currentMethodInfo = none := by
  rw [spurious_exit spurious]
  constructor
  · intro keeps
    exact ⟨keeps.methodStack.symm,keeps.currentMethodInfo.symm⟩
  · rintro ⟨empty,noMethod⟩
    refine ⟨empty.symm,fun _ => rfl,noMethod.symm,rfl,rfl,fun later clocks => ?_⟩
    rw [(VexThreadState.logMethodExit_methodLog later clocks).2,(VexThreadState.logMethodExit_methodLog later clocks).2]
    simp only [MethodLog.logMethodExit,MethodLog.updateExitingMethodInfo,empty]
    rfl

/-- The first event of a thread is the exit of a method that it was in before. -/
theorem first_exit_keeps : KeepsOpenCalls (initial false) ((initial false).logMethodExit 1 0).1 :=
  (spurious_exit_keeps_iff (initial false) 1 0 (by simp [Spurious,initial])).mpr ⟨rfl,rfl⟩

/-- The open call of method 1 is gone after an exit of method 2, and its own exit is not measured. -/
theorem spurious_exit_drops : ¬ ∀ (thread : VexThreadState) (methodId : Int) (clocks : Times),
    Spurious thread methodId → KeepsOpenCalls thread (thread.logMethodExit methodId clocks).1 := by
  intro claimed
  have spurious : Spurious (after (initial false) [.entry 1 0]) 2 := by
    unfold Spurious
    decide
  have keeps := claimed (after (initial false) [.entry 1 0]) 2 0 spurious
  have dropped := keeps.methodStack
  revert dropped
  decide

end Vexjine.MethodEvents
