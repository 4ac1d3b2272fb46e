import Vexjine.Runs

/-!
# The log of a thread's method calls

A thread keeps the records of its open calls in a pool, where the records of
finished calls are used again, and the slots of the open ones on a stack. The log
is related to the plain stack of records that it stands for.
-/

namespace Vexjine.MethodLogs
set_option linter.unusedSimpArgs false

/-! ## Records -/

/-- The clocks of a thread that a call is timed with. -/
inductive Clock | cpu | estimatedRealTime | monitorWait | ioWait
  deriving DecidableEq

instance : Fintype Clock :=
  ⟨{.cpu,.estimatedRealTime,.monitorWait,.ioWait},fun clock => by cases clock <;> decide⟩

abbrev Times := Clock → Int

/-- The times on entry are `entry_timestamp`, `real_entry_timestamp`, `monitor_waiting_timestamp` and
    `io_waiting_timestamp`, the callees' times the four sums that `updateCalleeTime` adds to. -/
structure MethodCallInfo where
  methodId : Int := 0
  entry : Times := 0
  callee : Times := 0
  recursive : Bool := false
  correspondingStackTraceMeasure : Option Nat := none
  deriving DecidableEq

/-- What an exit adds to the measure of the call. -/
structure Sample where
  exclusive : Times
  inclusive : Times
  calleeTime : Int
  deriving DecidableEq

namespace MethodCallInfo

def setInfo (methodId : Int) (clocks : Times) : MethodCallInfo := { methodId,entry := clocks }

def updateCalleeTime (info : MethodCallInfo) (difference : Times) : MethodCallInfo :=
  { info with callee := info.callee + difference }

def getInclusiveDifferenceFrom (exiting start : MethodCallInfo) : Times := exiting.entry - start.entry

/-- What `logTimesOnMethodExit` adds to the measure, once the calling method has its callee's time. -/
def logTimesOnMethodExit (exiting entryCallinfo : MethodCallInfo) : Sample where
  exclusive := exiting.getInclusiveDifferenceFrom entryCallinfo - entryCallinfo.callee
  inclusive := exiting.getInclusiveDifferenceFrom entryCallinfo
  calleeTime := entryCallinfo.callee .cpu

end MethodCallInfo

/-! ## The log -/

/-- Pointers to records are their slots in the storage; the top of the stack is its head. -/
structure MethodLog where
  methodInfoStorage : List MethodCallInfo := []
  nextMethodInfoToUse : Nat := 0
  methodStack : List Nat := []
  currentMethodInfo : Option Nat := none
  exitingMethodInfo : MethodCallInfo := {}
  deriving DecidableEq

namespace MethodLog
variable (log : MethodLog)

def infoAt (slot : Nat) : MethodCallInfo := log.methodInfoStorage.getD slot {}

def getNextMethodCallInfo (callinfo : MethodCallInfo) : MethodLog × Nat :=
  if log.nextMethodInfoToUse < log.methodInfoStorage.length then
    ({ log with
        methodInfoStorage := log.methodInfoStorage.set log.nextMethodInfoToUse callinfo
        nextMethodInfoToUse := log.nextMethodInfoToUse + 1 },log.nextMethodInfoToUse)
  else
    ({ log with
        methodInfoStorage := log.methodInfoStorage ++ [callinfo]
        nextMethodInfoToUse := log.nextMethodInfoToUse + 1 },log.methodInfoStorage.length)

def pushMethodEntryEventIntoThreadMethodStack (slot : Nat) : MethodLog :=
  { log with methodStack := slot :: log.methodStack,currentMethodInfo := some slot }

def logMethodEntry (callinfo : MethodCallInfo) : MethodLog :=
  (log.getNextMethodCallInfo callinfo).1.pushMethodEntryEventIntoThreadMethodStack
    (log.getNextMethodCallInfo callinfo).2

/-- The calling method, if there is one, gets the inclusive time of its callee. -/
def updateCallingMethod (callingMethodInfo : Option Nat) (inclusive : Times) : MethodLog :=
  match callingMethodInfo with
  | none => log
  | some caller => { log with
      methodInfoStorage := log.methodInfoStorage.set caller ((log.infoAt caller).updateCalleeTime inclusive) }

/-- The exit of the call in the slot, which is popped from above the rest of the stack. -/
def exitMatched (slot : Nat) (rest : List Nat) : MethodLog × Option Sample :=
  let inclusive := log.exitingMethodInfo.getInclusiveDifferenceFrom (log.infoAt slot)
  let updated := log.updateCallingMethod rest.head? inclusive
  ({ updated with
      methodStack := rest
      currentMethodInfo := rest.head?
      nextMethodInfoToUse := log.nextMethodInfoToUse - 1 },
    some (log.exitingMethodInfo.logTimesOnMethodExit (updated.infoAt slot)))

/-- On a stack, whose frames of other methods than the exiting one are popped first. -/
def logMethodExitOn (log : MethodLog) : List Nat → MethodLog × Option Sample
  | [] => ({ log with methodStack := [],currentMethodInfo := none },none)
  | slot :: rest =>
    if (log.infoAt slot).methodId ≠ log.exitingMethodInfo.methodId then log.logMethodExitOn rest
    else log.exitMatched slot rest

def updateExitingMethodInfo (methodId : Int) (clocks : Times) : MethodLog :=
  { log with exitingMethodInfo := .setInfo methodId clocks }

def logMethodExit : MethodLog × Option Sample := log.logMethodExitOn log.methodStack

/-- The open calls' records, the newest first. -/
def frames : List MethodCallInfo := log.methodStack.map log.infoAt

end MethodLog

/-! ## The stack of records -/

/-- The newest open call gets the inclusive time of a callee. -/
def chargeCaller (inclusive : Times) : List MethodCallInfo → List MethodCallInfo
  | [] => []
  | caller :: callers => caller.updateCalleeTime inclusive :: callers

/-- What an exit does to the open calls. -/
def exitFrames (exiting : MethodCallInfo) : List MethodCallInfo → List MethodCallInfo × Option Sample
  | [] => ([],none)
  | frame :: rest =>
    if frame.methodId ≠ exiting.methodId then exitFrames exiting rest
    else (chargeCaller (exiting.getInclusiveDifferenceFrom frame) rest,some (exiting.logTimesOnMethodExit frame))

/-! ## The log refines the stack -/

/-- The slots of the open calls are apart, lie below the next one to use, and are stored. -/
structure WellFormed (log : MethodLog) : Prop where
  increasing : log.methodStack.Pairwise (· > ·)
  below : ∀ slot ∈ log.methodStack, slot < log.nextMethodInfoToUse
  stored : log.nextMethodInfoToUse ≤ log.methodInfoStorage.length
  top : log.currentMethodInfo = log.methodStack.head?

theorem wellFormed_init : WellFormed {} := by
  constructor <;> simp

namespace MethodLog
variable {log : MethodLog}

theorem getNextMethodCallInfo_eq (wf : WellFormed log) (callinfo : MethodCallInfo) :
    (log.getNextMethodCallInfo callinfo).2 = log.nextMethodInfoToUse := by
  have stored := wf.stored
  unfold getNextMethodCallInfo
  split
  · rfl
  · show log.methodInfoStorage.length = log.nextMethodInfoToUse
    omega

/-- The record of a new call is in the next slot, and every slot below keeps its record. -/
theorem logMethodEntry_infoAt (wf : WellFormed log) (callinfo : MethodCallInfo) {slot : Nat}
    (used : slot ≤ log.nextMethodInfoToUse) :
    (log.logMethodEntry callinfo).infoAt slot =
      if slot = log.nextMethodInfoToUse then callinfo else log.infoAt slot := by
  have stored := wf.stored
  simp only [infoAt,logMethodEntry,pushMethodEntryEventIntoThreadMethodStack,List.getD_eq_getElem?_getD]
  unfold getNextMethodCallInfo
  split
  · rename_i free
    show ((log.methodInfoStorage.set log.nextMethodInfoToUse callinfo)[slot]?).getD {} = _
    rw [List.getElem?_set]
    by_cases same : log.nextMethodInfoToUse = slot
    · rw [if_pos same,if_pos free,if_pos same.symm]
      rfl
    · rw [if_neg same,if_neg (Ne.symm same)]
  · show ((log.methodInfoStorage ++ [callinfo])[slot]?).getD {} = _
    by_cases same : slot = log.nextMethodInfoToUse
    · have atEnd : slot = log.methodInfoStorage.length := by omega
      rw [if_pos same,atEnd,List.getElem?_concat_length]
      rfl
    · rw [if_neg same,List.getElem?_append_left (by omega)]

theorem logMethodEntry_methodStack (wf : WellFormed log) (callinfo : MethodCallInfo) :
    (log.logMethodEntry callinfo).methodStack = log.nextMethodInfoToUse :: log.methodStack := by
  unfold logMethodEntry pushMethodEntryEventIntoThreadMethodStack
  rw [getNextMethodCallInfo_eq wf]
  unfold getNextMethodCallInfo
  split <;> rfl

@[simp] theorem logMethodEntry_next (callinfo : MethodCallInfo) :
    (log.logMethodEntry callinfo).nextMethodInfoToUse = log.nextMethodInfoToUse + 1 := by
  unfold logMethodEntry pushMethodEntryEventIntoThreadMethodStack getNextMethodCallInfo
  split <;> rfl

theorem logMethodEntry_wellFormed (wf : WellFormed log) (callinfo : MethodCallInfo) :
    WellFormed (log.logMethodEntry callinfo) := by
  have stored := wf.stored
  refine ⟨?_,?_,?_,?_⟩
  · rw [logMethodEntry_methodStack wf]
    exact List.pairwise_cons.mpr ⟨wf.below,wf.increasing⟩
  · intro slot open'
    rw [logMethodEntry_methodStack wf] at open'
    rw [logMethodEntry_next]
    rcases List.mem_cons.mp open' with rfl | older
    · omega
    · have := wf.below slot older
      omega
  · rw [logMethodEntry_next]
    unfold logMethodEntry pushMethodEntryEventIntoThreadMethodStack getNextMethodCallInfo
    split
    · simp only [List.length_set]
      omega
    · simp only [List.length_append,List.length_singleton]
      omega
  · rw [logMethodEntry_methodStack wf]
    show some (log.getNextMethodCallInfo callinfo).2 = _
    rw [getNextMethodCallInfo_eq wf]
    rfl

theorem logMethodEntry_frames (wf : WellFormed log) (callinfo : MethodCallInfo) :
    (log.logMethodEntry callinfo).frames = callinfo :: log.frames := by
  unfold frames
  rw [logMethodEntry_methodStack wf,List.map_cons,logMethodEntry_infoAt wf callinfo (Nat.le_refl _),if_pos rfl]
  congr 1
  apply List.map_congr_left
  intro slot older
  have used := wf.below slot older
  rw [logMethodEntry_infoAt wf callinfo (Nat.le_of_lt used),if_neg (Nat.ne_of_lt used)]

/-- An exit finds no open call of its method and empties the stack, or ends the newest one. -/
theorem logMethodExitOn_cases (slots : List Nat) :
    (∀ slot ∈ slots, (log.infoAt slot).methodId ≠ log.exitingMethodInfo.methodId) ∧
      log.logMethodExitOn slots = ({ log with methodStack := [],currentMethodInfo := none },none) ∨
    ∃ above slot rest, slots = above ++ slot :: rest ∧
      (∀ other ∈ above, (log.infoAt other).methodId ≠ log.exitingMethodInfo.methodId) ∧
      (log.infoAt slot).methodId = log.exitingMethodInfo.methodId ∧
      log.logMethodExitOn slots = log.exitMatched slot rest := by
  induction slots with
  | nil => exact .inl ⟨by simp,rfl⟩
  | cons slot rest ih =>
    by_cases matched : (log.infoAt slot).methodId = log.exitingMethodInfo.methodId
    · right
      refine ⟨[],slot,rest,rfl,by simp,matched,?_⟩
      rw [logMethodExitOn,if_neg (not_not_intro matched)]
    · rw [logMethodExitOn,if_pos matched]
      rcases ih with ⟨none',result⟩ | ⟨above,found,later,rfl,unmatched,same,result⟩
      · exact .inl ⟨List.forall_mem_cons.mpr ⟨matched,none'⟩,result⟩
      · exact .inr ⟨slot :: above,found,later,rfl,List.forall_mem_cons.mpr ⟨matched,unmatched⟩,same,result⟩

section Matched
variable {above rest : List Nat} {slot : Nat}

theorem updateCallingMethod_infoAt (stored : ∀ caller ∈ rest.head?, caller < log.methodInfoStorage.length)
    (inclusive : Times) (slot : Nat) :
    (log.updateCallingMethod rest.head? inclusive).infoAt slot =
      if rest.head? = some slot then (log.infoAt slot).updateCalleeTime inclusive else log.infoAt slot := by
  cases rest with
  | nil => simp [updateCallingMethod]
  | cons caller callers =>
    have inside := stored caller rfl
    simp only [updateCallingMethod,List.head?_cons,infoAt,List.getD_eq_getElem?_getD,Option.some.injEq]
    rw [List.getElem?_set]
    by_cases same : caller = slot
    · rw [if_pos same,if_pos inside,if_pos same,same]
      rfl
    · rw [if_neg same,if_neg same]

private theorem rest_lt (wf : WellFormed log) (split : log.methodStack = above ++ slot :: rest) :
    ∀ other ∈ rest, other < slot := by
  have increasing := wf.increasing
  rw [split,List.pairwise_append] at increasing
  exact (List.pairwise_cons.mp increasing.2.1).1

private theorem rest_increasing (wf : WellFormed log) (split : log.methodStack = above ++ slot :: rest) :
    rest.Pairwise (· > ·) := by
  have increasing := wf.increasing
  rw [split,List.pairwise_append] at increasing
  exact (List.pairwise_cons.mp increasing.2.1).2

private theorem slot_lt (wf : WellFormed log) (split : log.methodStack = above ++ slot :: rest) :
    slot < log.nextMethodInfoToUse := by
  apply wf.below
  rw [split]
  simp

private theorem head_stored (wf : WellFormed log) (split : log.methodStack = above ++ slot :: rest) :
    ∀ caller ∈ rest.head?, caller < log.methodInfoStorage.length := by
  intro caller first
  have older := rest_lt wf split caller (List.mem_of_mem_head? first)
  have used := slot_lt wf split
  have stored := wf.stored
  omega

theorem exitMatched_wellFormed (wf : WellFormed log) (split : log.methodStack = above ++ slot :: rest) :
    WellFormed (log.exitMatched slot rest).1 := by
  have used := slot_lt wf split
  have stored := wf.stored
  refine ⟨rest_increasing wf split,?_,?_,rfl⟩
  · intro other member
    have older := rest_lt wf split other member
    show other < log.nextMethodInfoToUse - 1
    omega
  · have same : (log.exitMatched slot rest).1.methodInfoStorage.length = log.methodInfoStorage.length := by
      simp only [exitMatched,updateCallingMethod]
      split <;> simp
    show log.nextMethodInfoToUse - 1 ≤ (log.exitMatched slot rest).1.methodInfoStorage.length
    omega

theorem exitMatched_sample (wf : WellFormed log) (split : log.methodStack = above ++ slot :: rest) :
    (log.exitMatched slot rest).2 = some (log.exitingMethodInfo.logTimesOnMethodExit (log.infoAt slot)) := by
  simp only [exitMatched]
  rw [updateCallingMethod_infoAt (head_stored wf split),if_neg]
  intro itself
  exact Nat.lt_irrefl _ (rest_lt wf split slot (List.mem_of_mem_head? itself))

theorem exitMatched_frames (wf : WellFormed log) (split : log.methodStack = above ++ slot :: rest) :
    (log.exitMatched slot rest).1.frames =
      chargeCaller (log.exitingMethodInfo.getInclusiveDifferenceFrom (log.infoAt slot)) (rest.map log.infoAt) := by
  have increasing := rest_increasing wf split
  have stored := head_stored wf split
  unfold frames
  show rest.map (log.updateCallingMethod rest.head? _).infoAt = _
  cases rest with
  | nil => rfl
  | cons caller callers =>
    simp only [List.map_cons,chargeCaller]
    congr 1
    · rw [updateCallingMethod_infoAt stored,if_pos List.head?_cons]
    · apply List.map_congr_left
      intro other member
      have older := (List.pairwise_cons.mp increasing).1 other member
      rw [updateCallingMethod_infoAt stored,if_neg]
      intro same
      rw [List.head?_cons,Option.some.injEq] at same
      omega

end Matched

theorem logMethodExit_wellFormed (wf : WellFormed log) : WellFormed log.logMethodExit.1 := by
  unfold logMethodExit
  rcases @logMethodExitOn_cases log log.methodStack with ⟨-,result⟩ | ⟨above,slot,rest,split,-,-,result⟩
  · rw [result]
    exact ⟨List.Pairwise.nil,by simp,wf.stored,rfl⟩
  · rw [result]
    exact exitMatched_wellFormed wf split

/-- From a log whose next slot is at the depth of the stack, an exit keeps it there exactly if no other frame
    than that of its call is popped. -/
theorem logMethodExit_depth_iff (depth : log.nextMethodInfoToUse = log.methodStack.length) :
    log.logMethodExit.1.nextMethodInfoToUse = log.logMethodExit.1.methodStack.length ↔
      ∀ frame ∈ log.frames.head?, frame.methodId = log.exitingMethodInfo.methodId := by
  unfold logMethodExit
  rcases @logMethodExitOn_cases log log.methodStack with
    ⟨unmatched,result⟩ | ⟨above,slot,rest,split,unmatched,same,result⟩
  · rw [result]
    show log.nextMethodInfoToUse = 0 ↔ _
    rw [depth,frames]
    cases opened : log.methodStack with
    | nil => simp
    | cons newest older =>
      have other := unmatched newest (by rw [opened]; simp)
      simp [other]
  · rw [result]
    show log.nextMethodInfoToUse - 1 = rest.length ↔ _
    rw [depth,frames,split]
    cases above with
    | nil => simp [same]
    | cons newest older =>
      have other := unmatched newest List.mem_cons_self
      simp only [List.cons_append,List.map_cons,List.head?_cons,Option.mem_some_iff,forall_eq',other,iff_false,
        List.length_cons,List.length_append]
      omega

end MethodLog

/-! ## Exits on the stack -/

section Exits
variable {exiting frame : MethodCallInfo} {rest : List MethodCallInfo}

theorem exitFrames_other (other : frame.methodId ≠ exiting.methodId) :
    exitFrames exiting (frame :: rest) = exitFrames exiting rest := if_pos other

theorem exitFrames_own (own : frame.methodId = exiting.methodId) :
    exitFrames exiting (frame :: rest) =
      (chargeCaller (exiting.getInclusiveDifferenceFrom frame) rest,some (exiting.logTimesOnMethodExit frame)) :=
  if_neg (not_not_intro own)

end Exits

theorem exitFrames_none {exiting : MethodCallInfo} {frames : List MethodCallInfo}
    (unmatched : ∀ frame ∈ frames, frame.methodId ≠ exiting.methodId) : exitFrames exiting frames = ([],none) := by
  induction frames with
  | nil => rfl
  | cons frame rest ih =>
    obtain ⟨other,later⟩ := List.forall_mem_cons.mp unmatched
    rw [exitFrames_other other,ih later]

theorem exitFrames_append {exiting : MethodCallInfo} {above frames : List MethodCallInfo}
    (unmatched : ∀ frame ∈ above, frame.methodId ≠ exiting.methodId) :
    exitFrames exiting (above ++ frames) = exitFrames exiting frames := by
  induction above with
  | nil => rfl
  | cons frame rest ih =>
    obtain ⟨other,later⟩ := List.forall_mem_cons.mp unmatched
    rw [List.cons_append,exitFrames_other other,ih later]

theorem exitFrames_length {exiting : MethodCallInfo} {frames : List MethodCallInfo} {sample : Sample}
    (finished : (exitFrames exiting frames).2 = some sample) :
    (exitFrames exiting frames).1.length < frames.length := by
  induction frames with
  | nil => cases finished
  | cons frame rest ih =>
    by_cases own : frame.methodId = exiting.methodId
    · rw [exitFrames_own own]
      cases rest <;> simp [chargeCaller]
    · rw [exitFrames_other own] at finished ⊢
      exact Nat.lt_succ_of_lt (ih finished)

theorem exitFrames_empty {exiting : MethodCallInfo} {frames : List MethodCallInfo}
    (missed : (exitFrames exiting frames).2 = none) : (exitFrames exiting frames).1 = [] := by
  induction frames with
  | nil => rfl
  | cons frame rest ih =>
    by_cases own : frame.methodId = exiting.methodId
    · rw [exitFrames_own own] at missed
      cases missed
    · rw [exitFrames_other own] at missed ⊢
      exact ih missed

@[simp] theorem chargeCaller_methodIds (inclusive : Times) (frames : List MethodCallInfo) :
    (chargeCaller inclusive frames).map (·.methodId) = frames.map (·.methodId) := by
  cases frames <;> rfl

/-- The log does to the open calls what an exit does to the stack of their records. -/
theorem MethodLog.logMethodExit_frames {log : MethodLog} (wf : WellFormed log) :
    (log.logMethodExit.1.frames,log.logMethodExit.2) = exitFrames log.exitingMethodInfo log.frames := by
  unfold logMethodExit
  rcases @logMethodExitOn_cases log log.methodStack with
    ⟨unmatched,result⟩ | ⟨above,slot,rest,split,unmatched,same,result⟩
  · rw [result,exitFrames_none (by simpa [frames] using unmatched)]
    rfl
  · rw [result,exitMatched_frames wf split,exitMatched_sample wf split]
    have opened : log.frames = above.map log.infoAt ++ log.infoAt slot :: rest.map log.infoAt := by
      rw [frames,split,List.map_append,List.map_cons]
    rw [opened,exitFrames_append (by simpa using unmatched),exitFrames_own same]

end Vexjine.MethodLogs
