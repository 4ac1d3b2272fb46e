import Vexjine.RunEnds

/-!
# The instrumentation of a method

`BasicBlockMethodAdapter` is shown the body of a method piece by piece and writes
the new body. It puts a report of the entry in front and one of the exit ahead of
each instruction that ends the method, with a handler around the body that
reports the exit of exceptions where it is asked to, and replaces the calls that
are handled in virtual time. Its visits are translated one by one, and the body
that they write is the one with the reports apart, woven.
-/

namespace Vexjine.BasicBlockAdapter
open Vexjine.InstructionLists

/-! ## The parameters -/

/-- A line of the file of adapted methods. -/
structure MethodAdaptationInfo where
  methodFQN : String
  speedup : ℚ
  modelFilename : Option String
  replaceBody : Bool

def MethodAdaptationInfo.isPerformanceDescribedByExternallyDefinedModel (info : MethodAdaptationInfo) : Bool :=
  info.modelFilename.isSome

structure PerformanceModelStub where
  usePerformanceModel : Bool := false
  removeMethodBody : Bool := false

structure InstrumentationParameters where
  transformWaits : Bool := true
  externalInstrumentation : Bool := false
  trapInteractionPoints : Bool := false
  isOptimizerEnabled : Bool := false
  vexOptimizerSet : Bool := false
  invalidatedMethodIds : List Int := []
  recursiveMethodIds : List Int := []
  retransformingMethodId : Int := 0
  recursiveRetransformation : Bool := false
  instrumentExceptionHandlingCodeEverywhere : Bool := false
  modifyTimeCalls : Bool := true
  jvmtiUsage : Bool := true
  removingMonitors : Bool := false
  retransformingMethodName : Option String := none
  retransformingMethodDesc : Option String := none
  subclassOfJavaLangThread : Bool := false
  method0 : Int := 0
  profiledMethodNames : List String := []
  adaptedMethodNames : List MethodAdaptationInfo := []

namespace InstrumentationParameters

def isRetransformingInstrumentation (iparams : InstrumentationParameters) : Bool := iparams.retransformingMethodId != 0

def onlyLimitedJvmtiUsage (iparams : InstrumentationParameters) : Bool := !iparams.jvmtiUsage

def methodShouldBeAdapted (iparams : InstrumentationParameters) (methodId : Int) : Bool :=
  methodId ∉ iparams.invalidatedMethodIds ∧ methodId ∉ iparams.recursiveMethodIds

/-- Only the first main method is wrapped. -/
def shouldBeWrappedWithVexOptimizerLoop (iparams : InstrumentationParameters) (mName : String) :
    Bool × InstrumentationParameters :=
  if iparams.isOptimizerEnabled && !iparams.vexOptimizerSet && mName == "main" then
    (true,{ iparams with vexOptimizerSet := true })
  else (false,iparams)

end InstrumentationParameters

/-! ## The visited pieces -/

/-- The labels of the new body: those of the visited one, and those the adapter makes. -/
inductive NewLabel (Label : Type)
  | given (label : Label)
  | startExceptionCatchingBlockLabel
  | endExceptionCatchingBlockLabel
  | startMainWrappedWithVexOptimizer
  | endMainWrappedWithVexOptimizer
  deriving DecidableEq

/-- The instructions by the methods that visit them. The `Other` ones, which have no labels, are only passed on. -/
inductive Insn (Label Other : Type)
  | insn (opcode : Nat)
  | methodInsn (opcode : Nat) (owner name desc : String)
  | jumpInsn (opcode : Nat) (label : Label)
  | tableSwitchInsn (min max : Int) (dflt : Label) (labels : List Label)
  | lookupSwitchInsn (dflt : Label) (keys : List Int) (labels : List Label)
  | intInsn (opcode : Nat) (operand : Int)
  | varInsn (opcode var : Nat)
  | ldcClass (name : String)
  | ldcInt (value : Int)
  | otherInsn (other : Other)

/-- The labels an instruction jumps to. -/
def Insn.targets {Label Other : Type} : Insn Label Other → List Label
  | .jumpInsn _ label => [label]
  | .tableSwitchInsn _ _ dflt labels => dflt :: labels
  | .lookupSwitchInsn dflt _ labels => dflt :: labels
  | _ => []

/-- The instruction in the new body. -/
def Insn.given {Label Other : Type} : Insn Label Other → Insn (NewLabel Label) Other
  | .insn opcode => .insn opcode
  | .methodInsn opcode owner name desc => .methodInsn opcode owner name desc
  | .jumpInsn opcode label => .jumpInsn opcode (.given label)
  | .tableSwitchInsn min max dflt labels => .tableSwitchInsn min max (.given dflt) (labels.map .given)
  | .lookupSwitchInsn dflt keys labels => .lookupSwitchInsn (.given dflt) keys (labels.map .given)
  | .intInsn opcode operand => .intInsn opcode operand
  | .varInsn opcode var => .varInsn opcode var
  | .ldcClass name => .ldcClass name
  | .ldcInt value => .ldcInt value
  | .otherInsn other => .otherInsn other

/-- An instruction of the new body. `insertMethodInstrument` writes the load of the method's id and the static
    call of `EventNotifier` as one. -/
inductive Written (Label Other : Type)
  | source (insn : Insn (NewLabel Label) Other)
  | methodInstrument (methodId : Int) (eventNotifierMethod : String)

/-- A call of a `MethodVisitor`. -/
inductive Visit (Label Insn : Type)
  | insn (insn : Insn)
  | label (label : Label)
  | tryCatchBlock (start stop handler : Label) (type : Option String)

/-- What the adapter calls of the writer of the new body. -/
abbrev Output (Label Other : Type) := Visit (NewLabel Label) (Written Label Other)

def IRETURN : Nat := 172
def RETURN : Nat := 177
def ATHROW : Nat := 191
def MONITORENTER : Nat := 194
def MONITOREXIT : Nat := 195
def DUP : Nat := 89
def ALOAD : Nat := 25
def SIPUSH : Nat := 17
def IFEQ : Nat := 153
def GOTO : Nat := 167
def INVOKEVIRTUAL : Nat := 182
def INVOKESTATIC : Nat := 184
def ICONST_0 : Int := 3
def ICONST_1 : Int := 4
def ACC_STATIC : Nat := 8
def ACC_SYNCHRONIZED : Nat := 32

def startsWith (text start : String) : Bool := start.toList.isPrefixOf text.toList

def endsWith (text stop : String) : Bool := stop.toList.isSuffixOf text.toList

/-- The opcodes of the return instructions. -/
def isReturn (opcode : Nat) : Bool := IRETURN ≤ opcode ∧ opcode ≤ RETURN

/-! ## The adapter -/

structure BasicBlockMethodAdapter where
  iparams : InstrumentationParameters
  methodAdaptationInfo : Option MethodAdaptationInfo
  methodId : Int
  className : String
  methodName : String
  methodDesc : String
  isSynchronised : Bool
  isStatic : Bool
  profile : Bool
  instrumentExceptionHandlingCode : Bool
  shouldBeWrappedWithVexOptimizerLoop : Bool
  performanceModelParameters : Option PerformanceModelStub

/-- What changes from visit to visit. The vectors of labels are empty until the first is added. -/
structure Progress (Label : Type) where
  tryCatchDepth : Int := 0
  allStartingTryCatchingBlockLabels : List Label := []
  allEndingTryCatchingBlockLabels : List Label := []
  invocationPointId : Int := 0

namespace BasicBlockMethodAdapter

/-- The constructor. Whether the method is registered does not depend on its body, and is left to the caller. -/
def new (methodId : Int) (isProfiled : Bool) (access : Nat) (cName mName desc : String) (exceptions : List String)
    (iparams : InstrumentationParameters) (methodAdaptationInfo : Option MethodAdaptationInfo) :
    BasicBlockMethodAdapter × InstrumentationParameters :=
  let isSynchronised := access &&& ACC_SYNCHRONIZED != 0
  let profile := isProfiled && !(isSynchronised && (iparams.trapInteractionPoints || iparams.externalInstrumentation))
  let wrapped := if profile then iparams.shouldBeWrappedWithVexOptimizerLoop mName else (false,iparams)
  ({ iparams := wrapped.2,methodAdaptationInfo,methodId,className := cName,methodName := mName,methodDesc := desc
     isSynchronised,isStatic := access &&& ACC_STATIC != 0,profile
     instrumentExceptionHandlingCode := iparams.instrumentExceptionHandlingCodeEverywhere ||
       (profile && iparams.methodShouldBeAdapted methodId && !exceptions.isEmpty)
     shouldBeWrappedWithVexOptimizerLoop := wrapped.1
     performanceModelParameters := none },wrapped.2)

variable (adapter : BasicBlockMethodAdapter) {Label Other : Type}

def removingMethodBody : Bool := adapter.performanceModelParameters.any (·.removeMethodBody)

def isMethodDescribedByPerformanceModel : Bool :=
  adapter.performanceModelParameters.any (·.usePerformanceModel) ||
    adapter.methodAdaptationInfo.any (·.isPerformanceDescribedByExternallyDefinedModel)

/-- The method is reported where it is, not where it is called, and its reports have not been stopped. -/
def reports : Bool :=
  (!adapter.iparams.externalInstrumentation || endsWith adapter.methodName "init>") &&
    adapter.iparams.methodShouldBeAdapted adapter.methodId

def onMethodEntryInstrumentation : List (Written Label Other) :=
  if adapter.reports then
    [.methodInstrument adapter.methodId
      (if adapter.isMethodDescribedByPerformanceModel then "_enterPerfModel" else "_afterMethodEntry")]
  else []

def onMethodExitInstrumentation : List (Written Label Other) :=
  if adapter.reports then
    [.methodInstrument adapter.methodId
      (if adapter.isMethodDescribedByPerformanceModel then "_exitPerfModel" else "_beforeMethodExit")]
  else []

def onInteractionPointEncounter : List (Written Label Other) :=
  if adapter.iparams.trapInteractionPoints then
    [.source (.methodInsn INVOKESTATIC "virtualtime/EventNotifier" "_interactionPoint" "()V")]
  else []

/-- The calls that stand for a method of the virtual machine. -/
def notifier (name desc : String) : Written Label Other :=
  .source (.methodInsn INVOKESTATIC "virtualtime/EventNotifier" name desc)

/-- What `visitCode` writes. -/
def visitCode : List (Output Label Other) :=
  (if adapter.shouldBeWrappedWithVexOptimizerLoop then
    [.label .startMainWrappedWithVexOptimizer,.insn (notifier "_shouldMainIterationContinue" "()Z"),
      .insn (.source (.jumpInsn IFEQ .endMainWrappedWithVexOptimizer))]
  else []) ++
  (if adapter.instrumentExceptionHandlingCode && !adapter.removingMethodBody then
    [.label .startExceptionCatchingBlockLabel] else []) ++
  (if adapter.profile then adapter.onMethodEntryInstrumentation.map .insn else [])

/-- The calls of `wait`, `sleep`, `notify` and `notifyAll` in virtual time. -/
def transformedWait (opcode : Nat) (owner name desc : String) : Option (List (Written Label Other)) :=
  if !adapter.iparams.transformWaits then none
  else if adapter.iparams.onlyLimitedJvmtiUsage && opcode == INVOKEVIRTUAL && owner == "java/lang/Object" &&
      name == "wait" then
    -- the numbers of the opcodes are loaded
    some [.source (.ldcInt (if adapter.iparams.removingMonitors then ICONST_0 else ICONST_1)),
      notifier "waitInVirtualTimeWithoutJvmti"
        (if desc == "()V" then "(Ljava/lang/Object;Z)V"
        else if desc == "(J)V" then "(Ljava/lang/Object;JZ)V" else "(Ljava/lang/Object;JIZ)V")]
  else if !adapter.iparams.onlyLimitedJvmtiUsage && opcode == INVOKEVIRTUAL && owner == "java/lang/Object" &&
      name == "wait" && desc == "(J)V" then
    some [notifier "waitInVirtualTime" "(Ljava/lang/Object;J)V"]
  else if !adapter.iparams.onlyLimitedJvmtiUsage && opcode == INVOKEVIRTUAL && owner == "java/lang/Object" &&
      name == "wait" && desc == "(JI)V" then
    some [notifier "waitInVirtualTime" "(Ljava/lang/Object;JI)V"]
  else if name == "sleep" && (desc == "(J)V" || desc == "(JI)V") &&
      (owner != adapter.className || adapter.iparams.subclassOfJavaLangThread) then
    some [notifier "sleepInVirtualTime" desc]
  else if opcode == INVOKEVIRTUAL && owner == "java/lang/Object" && name == "notifyAll" && desc == "()V" then
    some [notifier (if adapter.iparams.removingMonitors then "beforeNotifyAllWithoutMonitors" else "beforeNotifyAll")
      "(Ljava/lang/Object;)V"]
  else if opcode == INVOKEVIRTUAL && owner == "java/lang/Object" && name == "notify" && desc == "()V" then
    some [notifier (if adapter.iparams.removingMonitors then "beforeNotifyWithoutMonitors" else "beforeNotify")
      "(Ljava/lang/Object;)V"]
  else none

/-- What `visitMethodInsn` writes, with the next invocation point. -/
def visitMethodInsn (point : Int) (opcode : Nat) (owner name desc : String) : Int × List (Written Label Other) :=
  if adapter.removingMethodBody then (point,[])
  else if opcode == INVOKESTATIC && owner == "java/lang/Thread" && name == "yield" && desc == "()V" then
    (point,[notifier "_yield" "()V"])
  else match adapter.transformedWait opcode owner name desc with
    | some written => (point,written)
    | none =>
      let io := startsWith owner "java/io/" || (startsWith owner "java/net/" && (name == "write" || name == "read"))
      let marking : List (Written Label Other) :=
        if io then
          [.source (.methodInsn INVOKESTATIC "java/lang/Thread" "currentThread" "()Ljava/lang/Thread;"),
            .source (.intInsn SIPUSH (point + 1)),
            .source (.methodInsn INVOKEVIRTUAL "java/lang/Thread" "setVtfIoInvocationPoint" "(I)V")]
        else []
      -- calls from the recursive method to its wrapper
      let called := if adapter.iparams.recursiveRetransformation && adapter.iparams.externalInstrumentation &&
          owner == adapter.className && adapter.iparams.retransformingMethodName == some adapter.methodName &&
          adapter.iparams.retransformingMethodDesc == some desc then "_vtfmethod_" ++ name else name
      let call := if adapter.iparams.modifyTimeCalls && opcode == INVOKESTATIC && owner == "java/lang/System" &&
          (called == "currentTimeMillis" || called == "nanoTime") && desc == "()J" then notifier called desc
        else .source (.methodInsn opcode owner called desc)
      (if io then point + 1 else point,marking ++ [call])

/-- The release of the monitor that a synchronised method reports when it ends. -/
def releaseMonitor : List (Written Label Other) :=
  if adapter.iparams.onlyLimitedJvmtiUsage && adapter.isSynchronised then
    [if adapter.isStatic then .source (.ldcClass adapter.className) else .source (.varInsn ALOAD 0),
      .source (.methodInsn INVOKESTATIC "java/lang/System" "identityHashCode" "(Ljava/lang/Object;)I"),
      notifier "_beforeReleasingMonitor" "(I)V"]
  else []

/-- What `visitInsn` writes. -/
def visitInsn (tryCatchDepth : Int) (opcode : Nat) : List (Output Label Other) :=
  if adapter.removingMethodBody then
    if isReturn opcode || (!adapter.instrumentExceptionHandlingCode && opcode == ATHROW) then
      (if adapter.profile then adapter.onMethodExitInstrumentation.map .insn else []) ++ [.insn (.source (.insn opcode))]
    else []
  else if isReturn opcode || (!adapter.instrumentExceptionHandlingCode && opcode == ATHROW && tryCatchDepth == 0) then
    (if adapter.profile then adapter.onMethodExitInstrumentation.map .insn else []) ++
    adapter.releaseMonitor.map .insn ++
    (if adapter.shouldBeWrappedWithVexOptimizerLoop then
      [.insn (notifier "_exportAndProcessMainIterationResults" "()V"),
        .insn (.source (.jumpInsn GOTO .startMainWrappedWithVexOptimizer)),.label .endMainWrappedWithVexOptimizer]
    else []) ++ [.insn (.source (.insn opcode))]
  else if (opcode == MONITORENTER || opcode == MONITOREXIT) && adapter.iparams.onlyLimitedJvmtiUsage then
    (if adapter.iparams.removingMonitors then [] else [.insn (.source (.insn DUP))]) ++
    (if opcode == MONITORENTER then
      .insn (.source (.methodInsn INVOKESTATIC "java/lang/System" "identityHashCode" "(Ljava/lang/Object;)I")) ::
        adapter.onInteractionPointEncounter.map .insn ++ [.insn (notifier "_beforeAcquiringMonitor" "(I)V")]
    else
      adapter.onInteractionPointEncounter.map .insn ++
        [.insn (.source (.methodInsn INVOKESTATIC "java/lang/System" "identityHashCode" "(Ljava/lang/Object;)I")),
          .insn (notifier "_beforeReleasingMonitor" "(I)V")]) ++
    (if adapter.iparams.removingMonitors then [] else [.insn (.source (.insn opcode))])
  else [.insn (.source (.insn opcode))]

/-- What `visitMaxs` writes at the end of the body. -/
def visitMaxs : List (Output Label Other) :=
  if adapter.instrumentExceptionHandlingCode && !adapter.removingMethodBody then
    .label .endExceptionCatchingBlockLabel :: adapter.onMethodExitInstrumentation.map .insn ++
      [.tryCatchBlock .startExceptionCatchingBlockLabel .endExceptionCatchingBlockLabel .endExceptionCatchingBlockLabel
        none,.insn (.source (.insn ATHROW))]
  else []

variable [DecidableEq Label]

/-- One visit, with what it writes. -/
def visit (progress : Progress Label) :
    Visit Label (Insn Label Other) → Progress Label × List (Output Label Other)
  | .tryCatchBlock start stop handler type =>
    if adapter.removingMethodBody then (progress,[])
    else
      ({ progress with
         allStartingTryCatchingBlockLabels := progress.allStartingTryCatchingBlockLabels ++ [start]
         allEndingTryCatchingBlockLabels := progress.allEndingTryCatchingBlockLabels ++ [stop] },
        [.tryCatchBlock (.given start) (.given stop) (.given handler) type])
  | .label label =>
    if adapter.removingMethodBody then (progress,[])
    else
      ({ progress with
         tryCatchDepth :=
           if label ∈ progress.allStartingTryCatchingBlockLabels then progress.tryCatchDepth + 1
           else if label ∈ progress.allEndingTryCatchingBlockLabels then progress.tryCatchDepth - 1
           else progress.tryCatchDepth },
        [.label (.given label)])
  | .insn (.insn opcode) => (progress,adapter.visitInsn progress.tryCatchDepth opcode)
  | .insn (.methodInsn opcode owner name desc) =>
    let (point,written) := adapter.visitMethodInsn progress.invocationPointId opcode owner name desc
    ({ progress with invocationPointId := point },written.map .insn)
  -- not overridden, so passed on in any case
  | .insn (.lookupSwitchInsn dflt keys labels) =>
    (progress,[.insn (.source (Insn.lookupSwitchInsn dflt keys labels).given)])
  | .insn other => (progress,if adapter.removingMethodBody then [] else [.insn (.source other.given)])

/-- The visits of a body, in order. -/
def visitBody : Progress Label → List (Visit Label (Insn Label Other)) →
    List (Output Label Other)
  | _, [] => []
  | progress, piece :: rest =>
    (adapter.visit progress piece).2 ++ visitBody (adapter.visit progress piece).1 rest

/-- The new body of the method. -/
def instrument (progress : Progress Label) (visits : List (Visit Label (Insn Label Other))) :
    List (Output Label Other) :=
  adapter.visitCode ++ adapter.visitBody progress visits ++ adapter.visitMaxs

end BasicBlockMethodAdapter

/-! ## The bodies -/

section Bodies
variable {Label I : Type}

def Visit.item : Visit Label I → List (Item Label I)
  | .insn op => [.insn [] op]
  | .label name => [.label name]
  | .tryCatchBlock _ _ _ _ => []

def Visit.handler : Visit Label I → List (Handler Label String)
  | .tryCatchBlock start stop handler type => [{ start,stop,target := handler,kind := type }]
  | _ => []

/-- The body that a `MethodWriter` makes of the visits. -/
def codeOf (visits : List (Visit Label I)) : Body Label I String where
  items := visits.flatMap Visit.item
  handlers := visits.flatMap Visit.handler

def Visit.chunk : Visit Label I → List (Chunk Label I)
  | .insn op => [.insn op]
  | .label name => [.label name]
  | .tryCatchBlock _ _ _ _ => []

end Bodies

/-! ## The reports apart -/

namespace BasicBlockMethodAdapter
variable (adapter : BasicBlockMethodAdapter) {Label Other : Type}

/-- The instructions that are taken to end the method. -/
def ends (tryCatchDepth : Int) (opcode : Nat) : Bool :=
  isReturn opcode || (!adapter.instrumentExceptionHandlingCode && opcode == ATHROW && tryCatchDepth == 0)

/-- The body is kept, and is not the main one that is repeated. -/
structure Plain : Prop where
  kept : adapter.removingMethodBody = false
  unwrapped : adapter.shouldBeWrappedWithVexOptimizerLoop = false

/-- The handler around the body that reports the exit. -/
def exitGuard : Guard (NewLabel Label) (Written Label Other) where
  start := .startExceptionCatchingBlockLabel
  stop := .endExceptionCatchingBlockLabel
  handling := adapter.onMethodExitInstrumentation
  rethrow := .source (.insn ATHROW)

/-- The reports around the body. -/
def frame : Frame (NewLabel Label) (Written Label Other) where
  front := if adapter.profile then adapter.onMethodEntryInstrumentation else []
  guard := if adapter.instrumentExceptionHandlingCode then some adapter.exitGuard else none

/-- The report ahead of an instruction that ends the method. -/
def exits : List (Written Label Other) := if adapter.profile then adapter.onMethodExitInstrumentation else []

variable [DecidableEq Label]

def chunksOf (progress : Progress Label) :
    Visit Label (Insn Label Other) → List (Chunk (NewLabel Label) (Written Label Other))
  | .insn (.insn opcode) =>
    if adapter.ends progress.tryCatchDepth opcode then
      [.closing adapter.exits adapter.releaseMonitor (.source (.insn opcode))]
    else (adapter.visitInsn progress.tryCatchDepth opcode).flatMap Visit.chunk
  | piece => (adapter.visit progress piece).2.flatMap Visit.chunk

/-- The parts of the new body, with the reports in front of those that end it. -/
def bodyChunks : Progress Label → List (Visit Label (Insn Label Other)) →
    List (Chunk (NewLabel Label) (Written Label Other))
  | _, [] => []
  | progress, piece :: rest => adapter.chunksOf progress piece ++ bodyChunks (adapter.visit progress piece).1 rest

/-- The new body without reports. -/
def unreported (progress : Progress Label) (visits : List (Visit Label (Insn Label Other))) :
    Body (NewLabel Label) (Written Label Other) String where
  items := (flat (adapter.bodyChunks progress visits)).map Item.bare
  handlers := (adapter.visitBody progress visits).flatMap Visit.handler

/-- The new body with the reports apart. -/
def reported (progress : Progress Label) (visits : List (Visit Label (Insn Label Other))) :
    Body (NewLabel Label) (Written Label Other) String where
  items := flat (adapter.bodyChunks progress visits)
  handlers := (adapter.visitBody progress visits).flatMap Visit.handler

omit [DecidableEq Label] in
theorem flat_chunk (visits : List (Output Label Other)) :
    woven (flat (visits.flatMap Visit.chunk)) = visits.flatMap Visit.item := by
  induction visits with
  | nil => rfl
  | cons piece rest ih =>
    rw [List.flatMap_cons,flat_append,woven_append,ih,List.flatMap_cons]
    congr 1
    cases piece with
    | insn op => rfl
    | label name => rfl
    | tryCatchBlock start stop handler type => rfl

omit [DecidableEq Label] in
theorem items_insns (insns : List (Written Label Other)) :
    (insns.map Visit.insn : List (Output Label Other)).flatMap Visit.item = plain insns := by
  induction insns with
  | nil => rfl
  | cons insn rest ih =>
    rw [List.map_cons,List.flatMap_cons,ih]
    rfl

omit [DecidableEq Label] in
theorem woven_closing (added ahead : List (Written Label Other)) (last : Written Label Other) :
    woven (Chunk.closing added ahead last : Chunk (NewLabel Label) _).items = plain (added ++ ahead ++ [last]) := by
  cases ahead with
  | nil => simp [Chunk.items]
  | cons first ahead =>
    simp [Chunk.items]

/-- What a visit writes is its part of the body, with the reports woven in. -/
theorem woven_chunksOf (simple : adapter.Plain) (progress : Progress Label) (piece : Visit Label (Insn Label Other)) :
    woven (flat (adapter.chunksOf progress piece)) = (adapter.visit progress piece).2.flatMap Visit.item := by
  unfold chunksOf
  split
  · rename_i opcode
    by_cases ending : adapter.ends progress.tryCatchDepth opcode
    · rw [if_pos ending,flat_cons,woven_append,woven_closing]
      have written : (adapter.visitInsn progress.tryCatchDepth opcode : List (Output Label Other)) =
          (adapter.exits ++ adapter.releaseMonitor ++ [Written.source (.insn opcode)]).map .insn := by
        unfold ends at ending
        unfold visitInsn exits
        rw [simple.kept,simple.unwrapped,if_neg (by decide),if_pos ending]
        cases adapter.profile <;> simp
      show _ = (adapter.visitInsn progress.tryCatchDepth opcode).flatMap Visit.item
      rw [written,items_insns]
      simp [flat]
    · rw [if_neg ending]
      exact flat_chunk _
  · exact flat_chunk _

theorem woven_bodyChunks (simple : adapter.Plain) (visits : List (Visit Label (Insn Label Other)))
    (progress : Progress Label) :
    woven (flat (adapter.bodyChunks progress visits)) = (adapter.visitBody progress visits).flatMap Visit.item := by
  induction visits generalizing progress with
  | nil => rfl
  | cons piece rest ih =>
    rw [bodyChunks,visitBody,flat_append,woven_append,List.flatMap_append,ih,woven_chunksOf adapter simple]

/-- The new body is the one with the reports apart, woven. -/
theorem codeOf_instrument (simple : adapter.Plain) (progress : Progress Label)
    (visits : List (Visit Label (Insn Label Other))) :
    codeOf (adapter.instrument progress visits) = adapter.frame.weave (adapter.reported progress visits) := by
  have handlers_insns : ∀ insns : List (Written Label Other),
      (insns.map Visit.insn : List (Output Label Other)).flatMap Visit.handler = [] := by
    intro insns
    induction insns with
    | nil => rfl
    | cons insn rest ih => simp [Visit.handler]
  have front : (adapter.visitCode : List (Output Label Other)).flatMap Visit.item = adapter.frame.head := by
    unfold visitCode frame Frame.head exitGuard
    rw [simple.kept,simple.unwrapped]
    cases adapter.instrumentExceptionHandlingCode <;> cases adapter.profile <;> simp [Visit.item,items_insns]
  have front_handlers : (adapter.visitCode : List (Output Label Other)).flatMap Visit.handler = [] := by
    unfold visitCode
    rw [simple.kept,simple.unwrapped]
    cases adapter.instrumentExceptionHandlingCode <;> cases adapter.profile <;> simp [Visit.handler,handlers_insns]
  have last : (adapter.visitMaxs : List (Output Label Other)).flatMap Visit.item = adapter.frame.tail := by
    unfold visitMaxs frame Frame.tail exitGuard
    rw [simple.kept]
    cases adapter.instrumentExceptionHandlingCode <;> simp [Visit.item,items_insns]
  unfold codeOf instrument Frame.weave reported
  simp only [List.flatMap_append,front,last,front_handlers,woven_bodyChunks adapter simple,List.nil_append,
    List.append_assoc]
  congr 2
  unfold visitMaxs frame exitGuard
  rw [simple.kept]
  cases adapter.instrumentExceptionHandlingCode <;> simp [Visit.handler,handlers_insns]

end BasicBlockMethodAdapter

end Vexjine.BasicBlockAdapter
