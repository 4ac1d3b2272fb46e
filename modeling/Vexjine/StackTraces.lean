import Vexjine.MethodEvents

/-!
# Following the call path

A thread that keeps stack traces moves through the tree of its calls. As long as
every exit is of the newest open call the current node is the one whose way from
the root spells the open calls, and every finished call adds its times to its own
node; an exit that skips frames moves back from the wrong one.
-/

namespace Vexjine.StackTraces
open Vexjine.MethodLogs Vexjine.MethodEvents Vexjine.ParentForests Vexjine.Runs

/-! ## The tree of calls -/

/-- The nodes of the calls that the node's method has made, or of those with no calling method. -/
def children (trace : StackTrace) : Option Nat → List Nat
  | none => trace.rootStackTraceInfos
  | some node => (trace.nodes[node]?.map (·.subMethods)).getD []

/-- Parents come before their children, who are listed with them once, and no method has two nodes below one. -/
structure Tree (trace : StackTrace) : Prop where
  rooted : Rooted trace.shape
  apart : trace.shape.Nodup
  listed : ∀ caller node, node ∈ children trace caller ↔ ∃ methodId, trace.shape[node]? = some (methodId,caller)
  once : ∀ caller, (children trace caller).Nodup
  current : ∀ node ∈ trace.currentStackTraceInfo, node < trace.shape.length

theorem tree_init : Tree {} := by
  refine ⟨?_,List.nodup_nil,?_,?_,?_⟩
  · intro node methodId caller found
    simp [StackTrace.shape] at found
  · intro caller node
    cases caller <;> simp [children,StackTrace.shape]
  · intro caller
    cases caller <;> simp [children]
  · intro node moved
    cases moved

theorem hasMethodId_iff {trace : StackTrace} {methodId : Int} {node : Nat} :
    trace.hasMethodId methodId node = true ↔ ∃ caller, trace.shape[node]? = some (methodId,caller) := by
  unfold StackTrace.hasMethodId StackTrace.shape
  rw [List.getElem?_map]
  cases trace.nodes[node]? with
  | none => simp
  | some found => simp

theorem shape_length (trace : StackTrace) : trace.shape.length = trace.nodes.length := List.length_map _

/-- A new node has no callees yet. -/
theorem subMethods_concat (nodes : List Node) (measure : PerformanceMeasure) (callingMethod : Option Nat) (node : Nat) :
    ((nodes ++ [({ measure,callingMethod } : Node)])[node]?.map (·.subMethods)).getD [] =
      (nodes[node]?.map (·.subMethods)).getD [] := by
  by_cases old : node < nodes.length
  · rw [List.getElem?_append_left old]
  · rw [List.getElem?_eq_none (Nat.le_of_not_lt old),List.getElem?_append_right (Nat.le_of_not_lt old)]
    cases node - nodes.length with
    | zero => rfl
    | succ later => rfl

theorem getCurrentStackTraceInfo_found {trace : StackTrace} {methodId : Int} {node : Nat}
    (found : (children trace trace.currentStackTraceInfo).find? (trace.hasMethodId methodId) = some node) :
    trace.getCurrentStackTraceInfo methodId = { trace with currentStackTraceInfo := some node } := by
  unfold StackTrace.getCurrentStackTraceInfo
  cases current : trace.currentStackTraceInfo with
  | none =>
    rw [current] at found
    simp only [show trace.rootStackTraceInfos.find? (trace.hasMethodId methodId) = some node from found]
  | some caller =>
    rw [current] at found
    simp only [show ((trace.nodes[caller]?.map (·.subMethods)).getD []).find? (trace.hasMethodId methodId) = some node
      from found]

/-- A node that is missing is added below the current one. -/
theorem getCurrentStackTraceInfo_added {trace : StackTrace} (tree : Tree trace) {methodId : Int}
    (missing : (children trace trace.currentStackTraceInfo).find? (trace.hasMethodId methodId) = none) :
    (trace.getCurrentStackTraceInfo methodId).shape = trace.shape ++ [(methodId,trace.currentStackTraceInfo)] ∧
      (trace.getCurrentStackTraceInfo methodId).currentStackTraceInfo = some trace.shape.length ∧
      ∀ caller, children (trace.getCurrentStackTraceInfo methodId) caller =
        children trace caller ++ if caller = trace.currentStackTraceInfo then [trace.shape.length] else [] := by
  unfold StackTrace.getCurrentStackTraceInfo
  cases current : trace.currentStackTraceInfo with
  | none =>
    rw [current] at missing
    simp only [show trace.rootStackTraceInfos.find? (trace.hasMethodId methodId) = none from missing]
    refine ⟨by simp [StackTrace.shape],by rw [shape_length],?_⟩
    intro caller
    cases caller with
    | none => simp [children,shape_length]
    | some node => simp [children,subMethods_concat]
  | some parent =>
    have stored : parent < trace.nodes.length := by
      rw [← shape_length]
      exact tree.current parent current
    rw [current] at missing
    simp only [show ((trace.nodes[parent]?.map (·.subMethods)).getD []).find? (trace.hasMethodId methodId) = none
      from missing]
    refine ⟨?_,by rw [shape_length],?_⟩
    · simp only [StackTrace.shape,List.map_append,List.map_cons,List.map_nil]
      congr 1
      apply List.ext_getElem?
      intro node
      rw [List.getElem?_map,List.getElem?_map,List.getElem?_modify]
      cases trace.nodes[node]? with
      | none => rfl
      | some stored => by_cases same : parent = node <;> simp [same]
    · intro caller
      cases caller with
      | none => simp [children]
      | some node =>
        simp only [children,subMethods_concat,List.getElem?_modify,Option.some.injEq,shape_length]
        by_cases same : parent = node
        · subst same
          simp [List.getElem?_eq_getElem stored]
        · simp [same,Ne.symm same]

/-- The node that an entry moves to: that of the method below the node it comes from. -/
theorem getCurrentStackTraceInfo_spec {trace : StackTrace} (tree : Tree trace) (methodId : Int) :
    ∃ node, (trace.getCurrentStackTraceInfo methodId).currentStackTraceInfo = some node ∧
      (trace.getCurrentStackTraceInfo methodId).shape[node]? = some (methodId,trace.currentStackTraceInfo) ∧
      Tree (trace.getCurrentStackTraceInfo methodId) ∧
      trace.nodes.length ≤ (trace.getCurrentStackTraceInfo methodId).nodes.length ∧
      ∀ old : Option Nat, (∀ index ∈ old, index < trace.shape.length) →
        (trace.getCurrentStackTraceInfo methodId).pathOf old = trace.pathOf old := by
  cases search : (children trace trace.currentStackTraceInfo).find? (trace.hasMethodId methodId) with
  | some node =>
    have listed := (tree.listed _ node).mp (List.mem_of_find?_eq_some search)
    obtain ⟨named,found⟩ := listed
    obtain ⟨caller,found'⟩ := hasMethodId_iff.mp (List.find?_some search)
    rw [found,Option.some.injEq,Prod.mk.injEq] at found'
    rw [getCurrentStackTraceInfo_found search]
    refine ⟨node,rfl,?_,⟨tree.rooted,tree.apart,?_,?_,?_⟩,Nat.le_refl _,fun _ _ => rfl⟩
    · show trace.shape[node]? = _
      rw [found,found'.1]
    · exact tree.listed
    · exact tree.once
    · intro other moved
      cases moved
      exact lt_length_of_some found
  | none =>
    obtain ⟨grown,moved,added⟩ := getCurrentStackTraceInfo_added tree search
    have inside : ∀ index ∈ trace.currentStackTraceInfo, index < trace.shape.length := tree.current
    refine ⟨trace.shape.length,moved,?_,⟨?_,?_,?_,?_,?_⟩,?_,?_⟩
    · rw [grown,List.getElem?_concat_length]
    · rw [grown]
      exact rooted_concat tree.rooted methodId inside
    · rw [grown,List.nodup_append]
      refine ⟨tree.apart,List.nodup_singleton _,?_⟩
      rintro entry old new fresh rfl
      rw [List.mem_singleton] at fresh
      obtain ⟨node,found⟩ := List.getElem?_of_mem (fresh ▸ old)
      have listed := (tree.listed _ node).mpr ⟨methodId,found⟩
      exact List.find?_eq_none.mp search node listed (hasMethodId_iff.mpr ⟨_,found⟩)
    · intro caller node
      rw [added,grown,List.mem_append,tree.listed]
      by_cases new : node = trace.shape.length
      · subst new
        have outside : trace.shape[trace.shape.length]? = none := List.getElem?_eq_none (Nat.le_refl _)
        rw [List.getElem?_concat_length,outside]
        by_cases same : caller = trace.currentStackTraceInfo
        · simp [same]
        · simp [same,Ne.symm same]
      · have notNew : node ∉ if caller = trace.currentStackTraceInfo then [trace.shape.length] else [] := by
          split <;> simp [new]
        rw [or_iff_left notNew]
        by_cases old : node < trace.shape.length
        · rw [List.getElem?_append_left old]
        · have outside : trace.shape[node]? = none := List.getElem?_eq_none (by omega)
          rw [outside,List.getElem?_eq_none (by rw [List.length_append,List.length_singleton]; omega)]
    · intro caller
      rw [added]
      split
      · rw [List.nodup_append]
        refine ⟨tree.once caller,List.nodup_singleton _,?_⟩
        rintro node old new fresh rfl
        obtain ⟨named,found⟩ := (tree.listed caller node).mp old
        have := lt_length_of_some found
        rw [List.mem_singleton.mp fresh] at this
        exact Nat.lt_irrefl _ this
      · rw [List.append_nil]
        exact tree.once caller
    · intro node current
      rw [moved] at current
      cases current
      rw [grown,List.length_append,List.length_singleton]
      omega
    · rw [← shape_length,← shape_length,grown,List.length_append]
      omega
    · intro old valid
      show path _ old = path _ old
      rw [grown]
      exact path_concat tree.rooted methodId inside valid

/-- Moving to a node keeps every measure, and a node that is added has none of its own yet. -/
theorem getCurrentStackTraceInfo_measures (trace : StackTrace) (methodId : Int) :
    (trace.getCurrentStackTraceInfo methodId).nodes.map (·.measure) = trace.nodes.map (·.measure) ∨
      (trace.getCurrentStackTraceInfo methodId).nodes.map (·.measure) =
        trace.nodes.map (·.measure) ++ [({ methodId } : PerformanceMeasure)] := by
  unfold StackTrace.getCurrentStackTraceInfo
  split
  · split
    · exact .inl rfl
    · right
      simp
  · split
    · exact .inl rfl
    · right
      rw [List.map_append,List.map_singleton]
      congr 1
      apply List.ext_getElem?
      intro node
      rw [List.getElem?_map,List.getElem?_map,List.getElem?_modify]
      cases trace.nodes[node]? with
      | none => rfl
      | some stored => simp only [Option.map_eq_map,Option.map_some]; split <;> rfl

theorem exitAt_shape (trace : StackTrace) (node : Nat) (sample : Sample) :
    (trace.exitAt node sample).shape = trace.shape := by
  unfold StackTrace.exitAt StackTrace.shape
  apply List.ext_getElem?
  intro other
  rw [List.getElem?_map,List.getElem?_map,List.getElem?_modify]
  cases trace.nodes[other]? with
  | none => rfl
  | some stored => by_cases same : node = other <;> simp [same]

theorem exitAt_children (trace : StackTrace) (node : Nat) (sample : Sample) (caller : Option Nat) :
    children (trace.exitAt node sample) caller = children trace caller := by
  cases caller with
  | none => rfl
  | some other =>
    simp only [children,StackTrace.exitAt,List.getElem?_modify]
    cases trace.nodes[other]? with
    | none => rfl
    | some stored => by_cases same : node = other <;> simp [same]

theorem exitAt_pathOf (trace : StackTrace) (node : Nat) (sample : Sample) (other : Option Nat) :
    (trace.exitAt node sample).pathOf other = trace.pathOf other := by
  unfold StackTrace.pathOf
  rw [exitAt_shape]

/-- The exit of a call moves to the caller of the node. -/
theorem exitAt_current {trace : StackTrace} {node : Nat} {methodId : Int} {caller : Option Nat}
    (found : trace.shape[node]? = some (methodId,caller)) (sample : Sample) :
    (trace.exitAt node sample).currentStackTraceInfo = caller := by
  unfold StackTrace.shape at found
  rw [List.getElem?_map,Option.map_eq_some_iff] at found
  obtain ⟨stored,at',same⟩ := found
  rw [Prod.mk.injEq] at same
  show trace.nodes[node]?.bind (·.callingMethod) = caller
  rw [at']
  exact same.2

theorem exitAt_tree {trace : StackTrace} (tree : Tree trace) {node : Nat} (stored : node < trace.shape.length)
    (sample : Sample) : Tree (trace.exitAt node sample) := by
  refine ⟨?_,?_,?_,?_,?_⟩
  · rw [exitAt_shape]
    exact tree.rooted
  · rw [exitAt_shape]
    exact tree.apart
  · intro caller other
    rw [exitAt_children,exitAt_shape]
    exact tree.listed caller other
  · intro caller
    rw [exitAt_children]
    exact tree.once caller
  · intro other moved
    obtain ⟨methodId,caller,found⟩ := exists_of_lt stored
    rw [exitAt_current found] at moved
    rw [Option.mem_def] at moved
    subst moved
    have := tree.rooted node methodId other found
    rw [exitAt_shape]
    omega

/-! ## The thread -/

/-- The methods of the open calls, the newest first. -/
def openMethods (thread : VexThreadState) : List Int := thread.methodLog.frames.map (·.methodId)

/-- Every frame's node is that of its own path. -/
def Placed (trace : StackTrace) : List MethodCallInfo → Prop
  | [] => True
  | frame :: older =>
    (∃ node, frame.correspondingStackTraceMeasure = some node ∧ node < trace.shape.length ∧
      trace.pathOf (some node) = (frame :: older).map (·.methodId)) ∧ Placed trace older

theorem placed_chargeCaller {trace : StackTrace} (inclusive : Times) {frames : List MethodCallInfo}
    (placed : Placed trace frames) : Placed trace (chargeCaller inclusive frames) := by
  cases frames with
  | nil => exact placed
  | cons caller callers => exact placed

theorem placed_of_pathOf {trace next : StackTrace} (grown : trace.shape.length ≤ next.shape.length)
    (same : ∀ old : Option Nat, (∀ index ∈ old, index < trace.shape.length) → next.pathOf old = trace.pathOf old)
    {frames : List MethodCallInfo} (placed : Placed trace frames) : Placed next frames := by
  induction frames with
  | nil => trivial
  | cons frame older ih =>
    obtain ⟨⟨node,named,stored,path⟩,later⟩ := placed
    refine ⟨⟨node,named,Nat.lt_of_lt_of_le stored grown,?_⟩,ih later⟩
    rw [same (some node) (by rintro index ⟨⟩; exact stored),path]

/-- The current node is the one node whose way from the root spells the open calls. -/
def Follows (thread : VexThreadState) : Prop :=
  ∀ trace ∈ thread.stackTrace, ∀ node : Option Nat, (∀ index ∈ node, index < trace.shape.length) →
    (trace.pathOf node = openMethods thread ↔ node = trace.currentStackTraceInfo)

/-- The sample of a call that the event finishes is added to the node of the call's own path. -/
def AddsToOwnPath (thread : VexThreadState) (event : Event) (next : VexThreadState) : Prop :=
  ∀ sample ∈ (thread.handle event).2, ∀ trace ∈ thread.stackTrace, ∀ later ∈ next.stackTrace,
    ∃ node, node < trace.nodes.length ∧ trace.pathOf (some node) = event.methodId :: openMethods next ∧
      later.nodes = trace.nodes.modify node fun found => { found with measure := found.measure.add sample }

/-- The tree and the nodes of the open calls, with the thread at the node of its path. -/
structure OnPath (thread : VexThreadState) : Prop where
  wf : WellFormed thread.methodLog
  traced : ∃ trace, thread.stackTrace = some trace ∧ Tree trace ∧ Placed trace thread.methodLog.frames ∧
    trace.pathOf trace.currentStackTraceInfo = openMethods thread

theorem follows_iff {thread : VexThreadState} {trace : StackTrace} (traced : thread.stackTrace = some trace)
    (tree : Tree trace) : Follows thread ↔ trace.pathOf trace.currentStackTraceInfo = openMethods thread := by
  constructor
  · intro follows
    exact (follows trace traced _ tree.current).mpr rfl
  · intro path trace' traced' node stored
    rw [traced,Option.mem_some_iff] at traced'
    subst traced'
    constructor
    · intro same
      exact eq_of_path_eq tree.rooted tree.apart stored tree.current (same.trans path.symm)
    · rintro rfl
      exact path

theorem OnPath.follows {thread : VexThreadState} (inv : OnPath thread) : Follows thread := by
  obtain ⟨trace,traced,tree,-,path⟩ := inv.traced
  exact (follows_iff traced tree).mpr path

section Steps
variable {thread : VexThreadState} {methodId : Int} {clocks : Times}

theorem onPath_entry (inv : OnPath thread) : OnPath (thread.logMethodEntry methodId clocks) := by
  obtain ⟨trace,traced,tree,placed,path⟩ := inv.traced
  obtain ⟨node,moved,found,grown,longer,kept⟩ := getCurrentStackTraceInfo_spec tree methodId
  have frames : (thread.logMethodEntry methodId clocks).methodLog.frames =
      { MethodCallInfo.setInfo methodId clocks with
        recursive := trace.methodAlreadyCalledInStackTrace methodId
        correspondingStackTraceMeasure := some node } :: thread.methodLog.frames := by
    unfold VexThreadState.logMethodEntry
    rw [traced]
    simp only [moved]
    exact MethodLog.logMethodEntry_frames inv.wf _
  have way : (trace.getCurrentStackTraceInfo methodId).pathOf (some node) = methodId :: openMethods thread := by
    rw [← path,← kept _ tree.current]
    exact path_some grown.rooted found
  refine ⟨wellFormed_handle inv.wf (.entry methodId clocks),_,?_,grown,?_,?_⟩
  · unfold VexThreadState.logMethodEntry
    rw [traced]
  · rw [frames]
    refine ⟨⟨node,rfl,lt_length_of_some found,way⟩,?_⟩
    apply placed_of_pathOf _ kept placed
    rw [shape_length,shape_length]
    exact longer
  · unfold openMethods
    rw [frames,moved]
    exact way

/-- An exit that finds no open call of its method leaves the tree as it was. -/
private theorem exit_missed (inv : OnPath thread) {trace : StackTrace} (traced : thread.stackTrace = some trace)
    (missed : (exitFrames (.setInfo methodId clocks) thread.methodLog.frames).2 = none) :
    (thread.logMethodExit methodId clocks).1.stackTrace = some trace ∧
      openMethods (thread.logMethodExit methodId clocks).1 = [] := by
  obtain ⟨frames,sample⟩ := thread.logMethodExit_frames inv.wf methodId clocks
  constructor
  · rw [thread.logMethodExit_stackTrace,sample,missed]
    exact traced
  · unfold openMethods
    rw [frames,exitFrames_empty missed]
    rfl

/-- An exit that finds its call adds the times to the node of the newest one, and moves to its caller. -/
private theorem exit_finished (inv : OnPath thread) {trace : StackTrace} (traced : thread.stackTrace = some trace)
    {sample : Sample} (finished : (exitFrames (.setInfo methodId clocks) thread.methodLog.frames).2 = some sample)
    {frame : MethodCallInfo} {older : List MethodCallInfo} (opened : thread.methodLog.frames = frame :: older)
    {node : Nat} (named : frame.correspondingStackTraceMeasure = some node) :
    (thread.logMethodExit methodId clocks).1.stackTrace = some (trace.exitAt node sample) := by
  obtain ⟨-,found⟩ := thread.logMethodExit_frames inv.wf methodId clocks
  rw [thread.logMethodExit_stackTrace,found,finished]
  have exiting : thread.exitingNode = some node := by
    rw [thread.exitingNode_eq inv.wf,opened]
    exact named
  simp only [VexThreadState.addToExitingMethodPerformanceMeasure,traced,exiting]

theorem onPath_exit (inv : OnPath thread) (newest : OfNewest thread (.exit methodId clocks)) :
    OnPath (thread.logMethodExit methodId clocks).1 ∧
      AddsToOwnPath thread (.exit methodId clocks) (thread.logMethodExit methodId clocks).1 := by
  obtain ⟨trace,traced,tree,placed,path⟩ := inv.traced
  obtain ⟨frames,found⟩ := thread.logMethodExit_frames inv.wf methodId clocks
  have wf : WellFormed (thread.logMethodExit methodId clocks).1.methodLog :=
    wellFormed_handle inv.wf (.exit methodId clocks)
  cases opened : thread.methodLog.frames with
  | nil =>
    have missed : (exitFrames (.setInfo methodId clocks) thread.methodLog.frames).2 = none := by
      rw [opened]
      rfl
    obtain ⟨same,closed⟩ := exit_missed inv traced missed
    refine ⟨⟨wf,trace,same,tree,?_,?_⟩,?_⟩
    · rw [frames,opened]
      trivial
    · rw [path,closed,openMethods,opened]
      rfl
    · intro sample finished
      rw [show (thread.handle (.exit methodId clocks)).2 = (thread.logMethodExit methodId clocks).2 from rfl,found,
        missed] at finished
      cases finished
  | cons frame older =>
    have own : frame.methodId = (MethodCallInfo.setInfo methodId clocks).methodId := newest frame (by rw [opened]; rfl)
    obtain ⟨inclusive,sample,exited⟩ : ∃ inclusive sample, exitFrames (.setInfo methodId clocks)
        thread.methodLog.frames = (chargeCaller inclusive older,some sample) := by
      rw [opened,exitFrames_own own]
      exact ⟨_,_,rfl⟩
    rw [opened] at placed
    obtain ⟨⟨node,named,stored,way⟩,later⟩ := placed
    have moved := exit_finished inv traced (congrArg Prod.snd exited) opened named
    obtain ⟨nodeMethod,caller,at'⟩ := exists_of_lt stored
    have callers : trace.pathOf caller = older.map (·.methodId) := by
      have up := path_some tree.rooted at'
      rw [← StackTrace.pathOf,way,List.map_cons,List.cons.injEq] at up
      exact up.2.symm
    have closed : openMethods (thread.logMethodExit methodId clocks).1 = older.map (·.methodId) := by
      rw [openMethods,frames,exited]
      exact chargeCaller_methodIds inclusive older
    refine ⟨⟨wf,_,moved,exitAt_tree tree stored sample,?_,?_⟩,?_⟩
    · rw [frames,exited]
      apply placed_chargeCaller
      apply placed_of_pathOf _ (fun old _ => exitAt_pathOf trace node sample old) later
      rw [exitAt_shape]
    · rw [exitAt_current at',exitAt_pathOf,callers,closed]
    · intro other finished trace' traced' next next'
      rw [show (thread.handle (.exit methodId clocks)).2 = (thread.logMethodExit methodId clocks).2 from rfl,found,
        exited,Option.mem_some_iff] at finished
      rw [traced,Option.mem_some_iff] at traced'
      rw [moved,Option.mem_some_iff] at next'
      subst finished traced' next'
      refine ⟨node,?_,?_,rfl⟩
      · rw [← shape_length]
        exact stored
      · rw [way,closed,List.map_cons,own]
        rfl

/-- An exit that skips frames leaves the thread at a node that is not that of its open calls. -/
private theorem not_follows_exit (inv : OnPath thread) (skips : ¬ OfNewest thread (.exit methodId clocks)) :
    ¬ Follows (thread.logMethodExit methodId clocks).1 := by
  obtain ⟨trace,traced,tree,placed,path⟩ := inv.traced
  obtain ⟨frames,found⟩ := thread.logMethodExit_frames inv.wf methodId clocks
  cases opened : thread.methodLog.frames with
  | nil =>
    apply absurd _ skips
    intro frame newest
    rw [opened] at newest
    cases newest
  | cons frame older =>
    have other : frame.methodId ≠ (MethodCallInfo.setInfo methodId clocks).methodId := by
      intro own
      apply skips
      intro newest top
      rw [opened] at top
      cases top
      exact own
    intro follows
    cases result : (exitFrames (.setInfo methodId clocks) thread.methodLog.frames).2 with
    | none =>
      obtain ⟨same,closed⟩ := exit_missed inv traced result
      have empty := (follows_iff same tree).mp follows
      rw [path,closed,openMethods,opened] at empty
      exact List.cons_ne_nil _ _ empty
    | some sample =>
      rw [opened] at placed
      obtain ⟨⟨node,named,stored,way⟩,-⟩ := placed
      have moved := exit_finished inv traced result opened named
      obtain ⟨nodeMethod,caller,at'⟩ := exists_of_lt stored
      have spelled := (follows_iff moved (exitAt_tree tree stored sample)).mp follows
      rw [exitAt_current at',exitAt_pathOf] at spelled
      have up := path_some tree.rooted at'
      rw [← StackTrace.pathOf,way,List.map_cons,List.cons.injEq] at up
      -- one frame has left the way, but at least two have left the stack
      have short : (exitFrames (.setInfo methodId clocks) older).1.length < older.length := by
        apply @exitFrames_length _ _ sample
        rw [opened,exitFrames_other other] at result
        exact result
      have lengths := congrArg List.length (up.2.trans spelled)
      rw [openMethods,frames,opened,exitFrames_other other,List.length_map,List.length_map] at lengths
      omega

end Steps

/-- The thread follows its call path throughout a run, and adds every finished call's times to the call's own
    node, exactly if every exit of the run finds the stack empty or its own call on top. -/
theorem follows_calls_iff (events : List Event) :
    Meets step (fun thread event => ∀ next ∈ step thread event, Follows next ∧ AddsToOwnPath thread event next)
        (initial true) events ↔
      Meets step OfNewest (initial true) events := by
  have start : OnPath (initial true) := ⟨wellFormed_init,{},rfl,tree_init,trivial,rfl⟩
  symm
  apply meets_congr_of_invariant _ _ start
  · intro thread event next inv newest stepped
    cases stepped
    cases event with
    | entry methodId clocks => exact onPath_entry inv
    | exit methodId clocks => exact (onPath_exit inv newest).1
  · intro thread event inv
    constructor
    · intro newest next stepped
      cases stepped
      cases event with
      | entry methodId clocks =>
        refine ⟨(onPath_entry inv).follows,?_⟩
        intro sample finished
        cases finished
      | exit methodId clocks => exact ⟨(onPath_exit inv newest).1.follows,(onPath_exit inv newest).2⟩
    · intro follows
      cases event with
      | entry methodId clocks => trivial
      | exit methodId clocks =>
        by_contra skips
        exact not_follows_exit inv skips (follows _ rfl).1

/-- An exit of the caller, whose callee's exit was missed, adds to the callee's node and leaves the thread at
    the caller's. -/
theorem stale_node : ¬ ∀ events : List Event,
    Meets step (fun thread event => ∀ next ∈ step thread event, Follows next ∧ AddsToOwnPath thread event next)
      (initial true) events := by
  intro follows
  obtain ⟨-,entered⟩ := follows [.entry 1 0,.entry 2 0,.exit 1 0]
  obtain ⟨-,called⟩ := entered _ rfl
  obtain ⟨exited,-⟩ := called _ rfl
  obtain ⟨path,-⟩ := exited _ rfl
  have current := (path _ rfl none (by simp)).mp (by decide)
  revert current
  decide

end Vexjine.StackTraces
