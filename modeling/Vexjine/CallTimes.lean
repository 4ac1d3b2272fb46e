import Vexjine.StackTraces

/-!
# The times of finished calls

In a well-nested sequence of entries and exits every finished call is charged the
time from its entry to its exit, and as its own the part of it that its direct
callees were not charged. The measures of the thread hold the sums of these
charges, and the calls' own times add up to the times of the outermost ones.
-/

namespace Vexjine.CallTimes
open Vexjine.MethodLogs Vexjine.MethodEvents Vexjine.ParentForests Vexjine.StackTraces Vexjine.Runs

/-! ## Well-nested sequences -/

/-- Finished calls one after another, each with its callees. -/
inductive Calls
  | none
  | call (methodId : Int) (entry : Times) (callees : Calls) (exit : Times) (later : Calls)

/-- What a finished call is charged. -/
structure Charge where
  methodId : Int
  inclusive : Times
  exclusive : Times

namespace Calls

def events : Calls → List Event
  | none => []
  | call methodId entry callees exit later =>
    .entry methodId entry :: callees.events ++ .exit methodId exit :: later.events

/-- The inclusive times of the calls, without those of their callees. -/
def inclusive : Calls → Times
  | none => 0
  | call _ entry _ exit later => exit - entry + later.inclusive

/-- What every call and callee is charged, in the order of their exits. -/
def charges : Calls → List Charge
  | none => []
  | call methodId entry callees exit later =>
    callees.charges ++
      { methodId,inclusive := exit - entry,exclusive := exit - entry - callees.inclusive } :: later.charges

/-- The calls' own times add up to the times of the outermost ones. -/
theorem exclusive_sum (calls : Calls) : (calls.charges.map (·.exclusive)).sum = calls.inclusive := by
  induction calls with
  | none => rfl
  | call methodId entry callees exit later ihCallees ihLater =>
    simp only [charges,inclusive,List.map_append,List.map_cons,List.sum_append,List.sum_cons,ihCallees,ihLater]
    abel

end Calls

/-- A well-nested sequence, at whose end calls may be open. -/
inductive Nested
  | finished (calls : Calls)
  | opened (before : Calls) (methodId : Int) (entry : Times) (inside : Nested)

namespace Nested

def events : Nested → List Event
  | finished calls => calls.events
  | opened before methodId entry inside => before.events ++ .entry methodId entry :: inside.events

def charges : Nested → List Charge
  | finished calls => calls.charges
  | opened before _ _ inside => before.charges ++ inside.charges

/-- The inclusive times of the finished calls that no finished call has made. -/
def inclusive : Nested → Times
  | finished calls => calls.inclusive
  | opened before _ _ inside => before.inclusive + inside.inclusive

theorem exclusive_sum (nested : Nested) : (nested.charges.map (·.exclusive)).sum = nested.inclusive := by
  induction nested with
  | finished calls => exact calls.exclusive_sum
  | opened before methodId entry inside ih =>
    simp only [charges,inclusive,List.map_append,List.sum_append,before.exclusive_sum,ih]

end Nested

/-! ## What the thread charges -/

/-- What an event charges, if it finishes a call. -/
def chargeOf (thread : VexThreadState) (event : Event) : Option Charge :=
  (thread.handle event).2.map fun sample =>
    { methodId := event.methodId,inclusive := sample.inclusive,exclusive := sample.exclusive }

/-- The charges of a run, in its order. -/
def charged : VexThreadState → List Event → List Charge
  | _, [] => []
  | thread, event :: rest => (chargeOf thread event).toList ++ charged (thread.handle event).1 rest

theorem charged_append (thread : VexThreadState) (before later : List Event) :
    charged thread (before ++ later) = charged thread before ++ charged (after thread before) later := by
  induction before generalizing thread with
  | nil => rfl
  | cons event rest ih =>
    rw [List.cons_append,charged,charged,ih,List.append_assoc]
    rfl

theorem chargeCaller_zero (frames : List MethodCallInfo) : chargeCaller 0 frames = frames := by
  cases frames with
  | nil => rfl
  | cons caller callers => simp [chargeCaller,MethodCallInfo.updateCalleeTime]

theorem chargeCaller_add (first second : Times) (frames : List MethodCallInfo) :
    chargeCaller second (chargeCaller first frames) = chargeCaller (first + second) frames := by
  cases frames with
  | nil => rfl
  | cons caller callers => simp [chargeCaller,MethodCallInfo.updateCalleeTime,add_assoc]

theorem entry_frames {thread : VexThreadState} (wf : WellFormed thread.methodLog) (methodId : Int) (clocks : Times) :
    ∃ callinfo : MethodCallInfo, callinfo.methodId = methodId ∧ callinfo.entry = clocks ∧ callinfo.callee = 0 ∧
      (thread.logMethodEntry methodId clocks).methodLog.frames = callinfo :: thread.methodLog.frames := by
  obtain ⟨callinfo,own,entered,fresh,log⟩ := thread.logMethodEntry_methodLog methodId clocks
  refine ⟨callinfo,own,entered,fresh,?_⟩
  rw [log]
  exact MethodLog.logMethodEntry_frames wf callinfo

/-- The exit of the newest open call charges it from its record. -/
theorem exit_charge {thread : VexThreadState} (wf : WellFormed thread.methodLog) {frame : MethodCallInfo}
    {older : List MethodCallInfo} (opened : thread.methodLog.frames = frame :: older) {methodId : Int}
    (own : frame.methodId = methodId) {entry callees : Times} (entered : frame.entry = entry)
    (called : frame.callee = callees) (exit : Times) :
    (thread.logMethodExit methodId exit).1.methodLog.frames = chargeCaller (exit - entry) older ∧
      chargeOf thread (.exit methodId exit) =
        some { methodId,inclusive := exit - entry,exclusive := exit - entry - callees } := by
  subst entered called
  obtain ⟨frames,sample⟩ := thread.logMethodExit_frames wf methodId exit
  have matched : frame.methodId = (MethodCallInfo.setInfo methodId exit).methodId := own
  rw [opened,exitFrames_own matched] at frames sample
  refine ⟨frames,?_⟩
  unfold chargeOf
  rw [show (thread.handle (.exit methodId exit)).2 = (thread.logMethodExit methodId exit).2 from rfl,sample]
  rfl

/-- What the events of finished calls do: the calls are charged, and the call that made them gets their time. -/
structure Accounted (thread : VexThreadState) (calls : Calls) : Prop where
  wf : WellFormed (after thread calls.events).methodLog
  frames : (after thread calls.events).methodLog.frames = chargeCaller calls.inclusive thread.methodLog.frames
  charges : charged thread calls.events = calls.charges
  newest : Meets step OfNewest thread calls.events

theorem accounted (calls : Calls) {thread : VexThreadState} (wf : WellFormed thread.methodLog) :
    Accounted thread calls := by
  induction calls generalizing thread with
  | none => exact ⟨wf,(chargeCaller_zero _).symm,rfl,trivial⟩
  | call methodId entry callees exit later ihCallees ihLater =>
    obtain ⟨callinfo,own,entered,fresh,opened⟩ := entry_frames wf methodId entry
    have wfEntry : WellFormed (thread.logMethodEntry methodId entry).methodLog :=
      wellFormed_handle wf (.entry methodId entry)
    have inside := ihCallees wfEntry
    let called := after (thread.logMethodEntry methodId entry) callees.events
    have top : called.methodLog.frames =
        callinfo.updateCalleeTime callees.inclusive :: thread.methodLog.frames := by
      rw [inside.frames,opened]
      rfl
    have spent : (callinfo.updateCalleeTime callees.inclusive).callee = callees.inclusive := by
      rw [MethodCallInfo.updateCalleeTime,fresh,zero_add]
    obtain ⟨closed,charge⟩ := exit_charge inside.wf top own entered spent exit
    have wfExit : WellFormed (called.logMethodExit methodId exit).1.methodLog :=
      wellFormed_handle inside.wf (.exit methodId exit)
    have rest := ihLater wfExit
    have finished : after thread (Calls.call methodId entry callees exit later).events =
        after (called.logMethodExit methodId exit).1 later.events := by
      show after (thread.logMethodEntry methodId entry) (callees.events ++ .exit methodId exit :: later.events) = _
      rw [after,List.foldl_append]
      rfl
    refine ⟨?_,?_,?_,?_⟩
    · rw [finished]
      exact rest.wf
    · rw [finished,rest.frames,closed,chargeCaller_add]
      rfl
    · show charged (thread.logMethodEntry methodId entry) (callees.events ++ .exit methodId exit :: later.events) = _
      rw [charged_append,inside.charges,charged,charge]
      exact congrArg (callees.charges ++ _ :: ·) rest.charges
    · refine ⟨trivial,?_⟩
      rintro next ⟨⟩
      apply meets_append inside.newest (run_after _ _)
      refine ⟨?_,?_⟩
      · intro frame newest
        rw [show (after _ callees.events).methodLog.frames = _ from top] at newest
        cases newest
        exact own
      · rintro next ⟨⟩
        exact rest.newest

theorem nested_accounted (nested : Nested) {thread : VexThreadState} (wf : WellFormed thread.methodLog) :
    charged thread nested.events = nested.charges ∧ Meets step OfNewest thread nested.events := by
  induction nested generalizing thread with
  | finished calls =>
    have finished := accounted calls wf
    exact ⟨finished.charges,finished.newest⟩
  | opened before methodId entry inside ih =>
    have first := accounted before wf
    have wfEntry : WellFormed ((after thread before.events).logMethodEntry methodId entry).methodLog :=
      wellFormed_handle first.wf (.entry methodId entry)
    obtain ⟨charges,newest⟩ := ih wfEntry
    constructor
    · rw [Nested.events,charged_append,first.charges,Nested.charges]
      exact congrArg (before.charges ++ ·) charges
    · apply meets_append first.newest (run_after _ _)
      refine ⟨trivial,?_⟩
      rintro next ⟨⟩
      exact newest

/-! ## The measures -/

/-- The invocations and the exclusive and inclusive times. -/
abbrev Total := Nat × Times × Times

/-- What the measures of the method hold together. -/
def totalOf (methodId : Int) (measures : List PerformanceMeasure) : Total :=
  (measures.map fun measure =>
    if measure.methodId = methodId then (measure.samples,measure.exclusive,measure.inclusive) else 0).sum

/-- What the calls of the method are charged together. -/
def chargedTo (methodId : Int) (charges : List Charge) : Total :=
  (charges.map fun charge => if charge.methodId = methodId then (1,charge.exclusive,charge.inclusive) else 0).sum

/-- The measures of the methods, or those of the nodes. -/
def measuresOf (thread : VexThreadState) : List PerformanceMeasure :=
  match thread.stackTrace with
  | none => thread.measures
  | some trace => trace.nodes.map (·.measure)

/-- The sum over a list grows by what it grows by at one index. -/
theorem sum_map_modify {α M : Type*} [AddCommMonoid M] (value : α → M) (change : α → α) (growth : M) {list : List α}
    {index : Nat} {entry : α} (found : list[index]? = some entry)
    (grows : value (change entry) = value entry + growth) :
    ((list.modify index change).map value).sum = (list.map value).sum + growth := by
  induction list generalizing index with
  | nil => simp at found
  | cons head rest ih =>
    cases index with
    | zero =>
      rw [List.getElem?_cons_zero,Option.some.injEq] at found
      subst found
      rw [List.modify_zero_cons,List.map_cons,List.sum_cons,List.map_cons,List.sum_cons,grows]
      abel
    | succ index =>
      rw [List.getElem?_cons_succ] at found
      rw [List.modify_succ_cons,List.map_cons,List.sum_cons,List.map_cons,List.sum_cons,ih found]
      abel

theorem totalOf_add (methodId : Int) (measure : PerformanceMeasure) (sample : Sample) :
    (if (measure.add sample).methodId = methodId then
      ((measure.add sample).samples,(measure.add sample).exclusive,(measure.add sample).inclusive) else (0 : Total)) =
    (if measure.methodId = methodId then (measure.samples,measure.exclusive,measure.inclusive) else 0) +
      if measure.methodId = methodId then (1,sample.exclusive,sample.inclusive) else 0 := by
  rw [PerformanceMeasure.add_methodId]
  split
  · rfl
  · rfl

/-- A method that has no measure yet gets one, and no method gets a second. -/
theorem addToMeasures_nodup {measures : List PerformanceMeasure} (apart : (measures.map (·.methodId)).Nodup)
    (methodId : Int) (sample : Sample) : ((addToMeasures methodId sample measures).map (·.methodId)).Nodup := by
  unfold addToMeasures
  split
  · have same : (measures.map fun measure =>
        if measure.methodId = methodId then measure.add sample else measure).map (·.methodId) =
        measures.map (·.methodId) := by
      rw [List.map_map]
      apply List.map_congr_left
      intro measure _
      by_cases own : measure.methodId = methodId <;> simp [own]
    rw [same]
    exact apart
  · rename_i missing
    rw [List.map_append,List.nodup_append]
    refine ⟨apart,List.nodup_singleton _,?_⟩
    rintro other old new fresh rfl
    obtain ⟨measure,member,rfl⟩ := List.mem_map.mp old
    apply missing
    rw [List.any_eq_true]
    refine ⟨measure,member,?_⟩
    simpa using fresh

theorem totalOf_addToMeasures {measures : List PerformanceMeasure} (apart : (measures.map (·.methodId)).Nodup)
    (methodId charged : Int) (sample : Sample) :
    totalOf methodId (addToMeasures charged sample measures) = totalOf methodId measures +
      if charged = methodId then (1,sample.exclusive,sample.inclusive) else 0 := by
  unfold addToMeasures
  split
  · rename_i present
    induction measures with
    | nil => simp at present
    | cons measure rest ih =>
      obtain ⟨fresh,apart'⟩ := List.nodup_cons.mp apart
      by_cases own : measure.methodId = charged
      · -- it is the only measure of its method
        have others : rest.map (fun measure => if measure.methodId = charged then measure.add sample else measure) =
            rest := by
          conv_rhs => rw [← List.map_id rest]
          apply List.map_congr_left
          intro other member
          rw [if_neg,id]
          intro same
          exact fresh (List.mem_map.mpr ⟨other,member,same.trans own.symm⟩)
        rw [List.map_cons,others,if_pos own]
        simp only [totalOf,List.map_cons,List.sum_cons]
        rw [totalOf_add,own]
        abel
      · have later := ih apart' (by simpa [own] using present)
        rw [List.map_cons,if_neg own]
        unfold totalOf at later ⊢
        rw [List.map_cons,List.sum_cons,List.map_cons,List.sum_cons,later,add_assoc]
  · unfold totalOf
    rw [List.map_append,List.sum_append,List.map_singleton,List.sum_singleton,totalOf_add]
    congr 1
    split
    · exact zero_add _
    · exact zero_add _

/-- A thread that keeps stack traces is on the path of its calls, any other has one measure for a method. -/
def Booked (thread : VexThreadState) : Prop :=
  WellFormed thread.methodLog ∧
    (thread.stackTrace = none ∧ (thread.measures.map (·.methodId)).Nodup ∨ OnPath thread)

theorem booked_init (stackTraces : Bool) : Booked (initial stackTraces) := by
  refine ⟨wellFormed_init,?_⟩
  cases stackTraces with
  | false => exact .inl ⟨rfl,List.nodup_nil⟩
  | true => exact .inr ⟨wellFormed_init,{},rfl,tree_init,trivial,rfl⟩

theorem chargedTo_append (methodId : Int) (first second : List Charge) :
    chargedTo methodId (first ++ second) = chargedTo methodId first + chargedTo methodId second := by
  unfold chargedTo
  rw [List.map_append,List.sum_append]

section Step
variable {thread : VexThreadState}

/-- A thread with a measure for each method. -/
theorem total_methods (plain : thread.stackTrace = none) (apart : (thread.measures.map (·.methodId)).Nodup)
    (event : Event) (methodId : Int) :
    (thread.handle event).1.stackTrace = none ∧ ((thread.handle event).1.measures.map (·.methodId)).Nodup ∧
      totalOf methodId (measuresOf (thread.handle event).1) =
        totalOf methodId (measuresOf thread) + chargedTo methodId (chargeOf thread event).toList := by
  cases event with
  | entry methodId' clocks =>
    have same : (thread.handle (.entry methodId' clocks)).1.measures = thread.measures ∧
        (thread.handle (.entry methodId' clocks)).1.stackTrace = none := by
      simp only [VexThreadState.handle,VexThreadState.logMethodEntry,plain,and_self]
    refine ⟨same.2,by rw [same.1]; exact apart,?_⟩
    unfold measuresOf
    rw [same.2,same.1,plain]
    exact (add_zero _).symm
  | exit methodId' clocks =>
    simp only [measuresOf,VexThreadState.handle,VexThreadState.logMethodExit,chargeOf]
    generalize (thread.methodLog.updateExitingMethodInfo methodId' clocks).logMethodExit = exited
    obtain ⟨log,sample⟩ := exited
    cases sample with
    | none =>
      refine ⟨plain,apart,?_⟩
      simp only [plain]
      exact (add_zero _).symm
    | some sample =>
      simp only [VexThreadState.addToExitingMethodPerformanceMeasure,plain]
      refine ⟨trivial,addToMeasures_nodup apart methodId' sample,?_⟩
      rw [totalOf_addToMeasures apart]
      simp [chargedTo,Event.methodId]

/-- A thread on the path of its calls. -/
theorem total_nodes (onPath : OnPath thread) {event : Event} (newest : OfNewest thread event) (methodId : Int) :
    OnPath (thread.handle event).1 ∧
      totalOf methodId (measuresOf (thread.handle event).1) =
        totalOf methodId (measuresOf thread) + chargedTo methodId (chargeOf thread event).toList := by
  obtain ⟨trace,traced,tree,-,-⟩ := onPath.traced
  cases event with
  | entry methodId' clocks =>
    refine ⟨onPath_entry onPath,?_⟩
    have moved : (thread.handle (.entry methodId' clocks)).1.stackTrace =
        some (trace.getCurrentStackTraceInfo methodId') := by
      simp only [VexThreadState.handle,VexThreadState.logMethodEntry,traced]
    unfold measuresOf
    rw [moved,traced]
    show totalOf methodId ((trace.getCurrentStackTraceInfo methodId').nodes.map (·.measure)) =
      totalOf methodId (trace.nodes.map (·.measure)) + 0
    rcases getCurrentStackTraceInfo_measures trace methodId' with same | added
    · rw [same,add_zero]
    · rw [added]
      unfold totalOf
      rw [List.map_append,List.sum_append,List.map_singleton,List.sum_singleton]
      congr 1
      split <;> rfl
  | exit methodId' clocks =>
    obtain ⟨later,adds⟩ := onPath_exit onPath newest
    refine ⟨later,?_⟩
    obtain ⟨next,traced',-,-,-⟩ := later.traced
    have next' : (thread.handle (.exit methodId' clocks)).1.stackTrace = some next := traced'
    unfold measuresOf
    rw [next',traced]
    cases finished : (thread.handle (.exit methodId' clocks)).2 with
    | none =>
      have same : (thread.handle (.exit methodId' clocks)).1.stackTrace = thread.stackTrace := by
        have exited := thread.logMethodExit_stackTrace methodId' clocks
        rw [show (thread.logMethodExit methodId' clocks).2 = none from finished] at exited
        exact exited
      rw [next',traced,Option.some.injEq] at same
      rw [same,chargeOf,finished]
      exact (add_zero _).symm
    | some sample =>
      obtain ⟨node,stored,path,nodes⟩ := adds sample finished trace traced next traced'
      obtain ⟨found,at'⟩ : ∃ found, trace.nodes[node]? = some found := ⟨_,List.getElem?_eq_getElem stored⟩
      have shaped : trace.shape[node]? = some (found.measure.methodId,found.callingMethod) := by
        rw [StackTrace.shape,List.getElem?_map,at']
        rfl
      have named : found.measure.methodId = methodId' := by
        have up := path_some tree.rooted shaped
        rw [← StackTrace.pathOf,path,List.cons.injEq] at up
        exact up.1.symm
      unfold totalOf
      rw [List.map_map,List.map_map,nodes,sum_map_modify _ _ _ at' (totalOf_add methodId found.measure sample)]
      rw [chargeOf,finished,named]
      simp [chargedTo,Event.methodId]

theorem total_step (booked : Booked thread) {event : Event} (newest : OfNewest thread event) :
    Booked (thread.handle event).1 ∧ ∀ methodId, totalOf methodId (measuresOf (thread.handle event).1) =
      totalOf methodId (measuresOf thread) + chargedTo methodId (chargeOf thread event).toList := by
  obtain ⟨wf,mode⟩ := booked
  have wf' : WellFormed (thread.handle event).1.methodLog := wellFormed_handle wf event
  rcases mode with ⟨plain,apart⟩ | onPath
  · constructor
    · obtain ⟨plain',apart',-⟩ := total_methods plain apart event 0
      exact ⟨wf',.inl ⟨plain',apart'⟩⟩
    · intro methodId
      exact (total_methods plain apart event methodId).2.2
  · constructor
    · exact ⟨wf',.inr (total_nodes onPath newest 0).1⟩
    · intro methodId
      exact (total_nodes onPath newest methodId).2

end Step

theorem total_run {events : List Event} {thread : VexThreadState} (booked : Booked thread)
    (newest : Meets step OfNewest thread events) (methodId : Int) :
    totalOf methodId (measuresOf (after thread events)) =
      totalOf methodId (measuresOf thread) + chargedTo methodId (charged thread events) := by
  induction events generalizing thread with
  | nil => exact (add_zero _).symm
  | cons event rest ih =>
    obtain ⟨later,totals⟩ := total_step booked newest.1
    have remaining := ih later (newest.2 _ rfl)
    show totalOf methodId (measuresOf (after (thread.handle event).1 rest)) = _
    rw [remaining,totals,charged,chargedTo_append,add_assoc]

/-- In every well-nested sequence each finished call is charged the time from its entry to its exit, and as its
    own what its direct callees were not charged of it; the measures hold the sums of these charges for every
    method, and the calls' own times add up to the times of the outermost finished calls. -/
theorem finished_calls_charged (stackTraces : Bool) (nested : Nested) :
    charged (initial stackTraces) nested.events = nested.charges ∧
      (∀ methodId, totalOf methodId (measuresOf (after (initial stackTraces) nested.events)) =
        chargedTo methodId nested.charges) ∧
      (nested.charges.map (·.exclusive)).sum = nested.inclusive := by
  obtain ⟨charges,newest⟩ := @nested_accounted nested (initial stackTraces) wellFormed_init
  refine ⟨charges,?_,nested.exclusive_sum⟩
  intro methodId
  rw [total_run (booked_init stackTraces) newest methodId,charges]
  have empty : totalOf methodId (measuresOf (initial stackTraces)) = 0 := by
    cases stackTraces <;> rfl
  rw [empty,zero_add]

end Vexjine.CallTimes
