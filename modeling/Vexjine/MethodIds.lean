import Mathlib.Data.List.ReduceOption
import Vexjine.BasicBlockAdapter
import Vexjine.Runs

/-!
# The ids of the methods

Every class that is loaded is visited by a `BasicBlockAdapter`, which numbers its
profiled methods and registers them. To stop the reports of a method its class is
visited again, with the numbers rolled back to the first of the class. A method
keeps its number through all of this as long as no class fails to be replaced.
-/

namespace Vexjine.MethodIds
open Vexjine.BasicBlockAdapter Vexjine.Runs

/-! ## Numbers -/

/-- The numbers are `int`s. -/
structure SimpleMethodId where
  methodId : Int := 110
  previousMethodId : Int := 0

namespace SimpleMethodId
variable (generator : SimpleMethodId)

def getCurrentMethodId : Int := generator.methodId

def getNextMethodId : Int × SimpleMethodId :=
  (generator.methodId,{ generator with methodId := (generator.methodId + 1).bmod (2 ^ 32) })

def rollbackToMethodId (method0 : Int) : SimpleMethodId :=
  { methodId := method0,previousMethodId := generator.methodId }

def returnToCurrentMethodId : SimpleMethodId := { generator with methodId := generator.previousMethodId }

end SimpleMethodId

/-! ## Visiting a class -/

structure MethodDecl where
  access : Nat
  name : String
  desc : String
  exceptions : List String

def MethodDecl.isSynchronized (decl : MethodDecl) : Bool := decl.access &&& ACC_SYNCHRONIZED != 0

structure ClassFile where
  name : String
  superName : String
  isInterface : Bool
  methods : List MethodDecl

/-- What `EventNotifier.registerMethod` is told. -/
structure MethodData where
  fqn : String
  methodId : Int
  method0 : Int
  deriving DecidableEq

def fullName (cls : ClassFile) (decl : MethodDecl) : String := cls.name ++ " " ++ decl.name ++ " " ++ decl.desc

/-- The method under the name of a synchronised one, which calls that under a new name. -/
structure Wrapper where
  methodId : Int
  profileMethod : Bool
  instrumentExceptionHandlingCode : Bool

/-- What becomes of a method. Those of interfaces are left as they are. -/
structure MethodCode where
  decl : MethodDecl
  wrapper : Option Wrapper
  adapter : Option BasicBlockMethodAdapter

/-- The static state of the instrumentation, with all that has been registered. -/
structure Jine where
  methodIdGenerator : SimpleMethodId := {}
  iparams : InstrumentationParameters := {}
  registered : List MethodData := []

def shouldMethodBeProfiled (iparams : InstrumentationParameters) (className methodName : String) : Bool :=
  methodName == "main" || (!startsWith methodName "access$" &&
    (iparams.profiledMethodNames.isEmpty || iparams.profiledMethodNames.contains (className ++ methodName)))

def shouldInvalidateMethodProfilingOf (iparams : InstrumentationParameters) (methodId : Int) : Bool :=
  iparams.isRetransformingInstrumentation && !iparams.recursiveRetransformation &&
    iparams.invalidatedMethodIds.contains methodId

/-- With a factor or a model, if the file of adapted methods has the method. -/
def getMethodAdaptationInfoOf (iparams : InstrumentationParameters) (fullname : String) : Option MethodAdaptationInfo :=
  iparams.adaptedMethodNames.find? (·.methodFQN == fullname)

namespace Jine

def registerMethod (jine : Jine) (fqn : String) (methodId : Int) : Jine :=
  { jine with registered := jine.registered ++ [{ fqn,methodId,method0 := jine.iparams.method0 }] }

/-- `wrapSynchronizedMethod`, as far as it depends on the state. -/
def wrapSynchronizedMethod (jine : Jine) (cls : ClassFile) (decl : MethodDecl) (profileMethod : Bool) : Wrapper × Jine :=
  let methodId := jine.methodIdGenerator.getCurrentMethodId
  ({ methodId,profileMethod,instrumentExceptionHandlingCode := !decl.exceptions.isEmpty },
    if profileMethod && !jine.iparams.isRetransformingInstrumentation then
      jine.registerMethod (fullName cls decl) methodId
    else jine)

/-- The constructor of the adapter of a method, which registers the profiled ones. -/
def newAdapter (jine : Jine) (methodId : Int) (isProfiled : Bool) (cls : ClassFile) (decl : MethodDecl)
    (adaptationInfo : Option MethodAdaptationInfo) : BasicBlockMethodAdapter × Jine :=
  let made := BasicBlockMethodAdapter.new methodId isProfiled decl.access cls.name decl.name decl.desc decl.exceptions
    jine.iparams adaptationInfo
  (made.1,
    { (if made.1.profile && !jine.iparams.isRetransformingInstrumentation then
        jine.registerMethod (fullName cls decl) methodId
      else jine) with iparams := made.2 })

end Jine

/-- A class while it is visited. The adapter of the class keeps what the file of adapted methods has of the last
    method it looked for. -/
structure ClassVisit where
  jine : Jine
  adaptationInfo : Option MethodAdaptationInfo := none
  codes : List MethodCode := []

namespace ClassVisit

def callBasicBlockAdapter (visited : ClassVisit) (profiling : Bool) (cls : ClassFile) (decl : MethodDecl) :
    Option BasicBlockMethodAdapter × ClassVisit :=
  if cls.isInterface then (none,visited)
  else
    let next := visited.jine.methodIdGenerator.getNextMethodId
    let numbered := if profiling then (next.1,{ visited.jine with methodIdGenerator := next.2 }) else (0,visited.jine)
    let adaptationInfo := getMethodAdaptationInfoOf visited.jine.iparams (cls.name ++ decl.name)
    let made := numbered.2.newAdapter numbered.1 profiling cls decl adaptationInfo
    (some made.1,{ visited with jine := made.2,adaptationInfo })

def visitMethod (profiling : Bool) (cls : ClassFile) (visited : ClassVisit) (decl : MethodDecl) : ClassVisit :=
  if !(profiling && shouldMethodBeProfiled visited.jine.iparams cls.name decl.name) then
    let made := visited.jine.newAdapter (-1) false cls decl visited.adaptationInfo
    { visited with jine := made.2,codes := visited.codes ++ [{ decl,wrapper := none,adapter := some made.1 }] }
  else if decl.isSynchronized &&
      (visited.jine.iparams.trapInteractionPoints || visited.jine.iparams.onlyLimitedJvmtiUsage) then
    let wrapped := visited.jine.wrapSynchronizedMethod cls decl
      (!shouldInvalidateMethodProfilingOf visited.jine.iparams visited.jine.methodIdGenerator.getCurrentMethodId)
    let called := callBasicBlockAdapter { visited with jine := wrapped.2 } profiling cls decl
    { called.2 with codes := called.2.codes ++ [{ decl,wrapper := some wrapped.1,adapter := called.1 }] }
  else
    let called := visited.callBasicBlockAdapter profiling cls decl
    { called.2 with codes := called.2.codes ++ [{ decl,wrapper := none,adapter := called.1 }] }

end ClassVisit

/-- The constructor of the adapter of a class, and its visit of the class. -/
def instrumentClass (jine : Jine) (profiling : Bool) (cls : ClassFile) : List MethodCode × Jine :=
  let iparams := if jine.iparams.isRetransformingInstrumentation then jine.iparams
    else { jine.iparams with method0 := jine.methodIdGenerator.getCurrentMethodId }
  let opened := { jine with iparams := { iparams with subclassOfJavaLangThread := cls.superName == "java/lang/Thread" } }
  let visited := cls.methods.foldl (ClassVisit.visitMethod profiling cls) { jine := opened }
  (visited.codes,visited.jine)

/-! ## Loading and visiting again -/

def setRetranformationInfo (iparams : InstrumentationParameters) (methodId : Int) (recursiveAdaptation : Bool)
    (method0 : Int) (parts : List String) : InstrumentationParameters :=
  { iparams with
    retransformingMethodId := methodId,method0,recursiveRetransformation := recursiveAdaptation
    retransformingMethodName := parts[1]?,retransformingMethodDesc := parts[2]? }

def cleanupRetranformationInfo (iparams : InstrumentationParameters) : InstrumentationParameters :=
  { iparams with retransformingMethodId := 0,method0 := 0,recursiveRetransformation := false }

/-- A loaded class with its code. What the code does not keep: the number that was next when the class was loaded,
    and whether the class was last visited again for a recursive method. -/
structure Loaded where
  cls : ClassFile
  profile : Bool
  codes : List MethodCode
  method0 : Int
  adaptedFor : Option Bool := none

structure Agent where
  jine : Jine := {}
  loaded : List Loaded := []

/-- A name as the virtual machine has it. -/
def dotted (name : String) : List Char := name.toList.map fun c => if c = '/' then '.' else c

def fqnParts (fqn : String) : List String := (fqn.toList.splitOn ' ').map String.ofList

/-- The numbers are rolled back, and the visit is said to be for the method. -/
def Jine.onRetransformationStart (jine : Jine) (data : MethodData) (isRecursiveAdaptation : Bool) : Jine :=
  { jine with
    iparams := setRetranformationInfo jine.iparams data.methodId isRecursiveAdaptation data.method0 (fqnParts data.fqn)
    methodIdGenerator := jine.methodIdGenerator.rollbackToMethodId data.method0 }

def Jine.onRetransformationEnd (jine : Jine) : Jine :=
  { jine with
    methodIdGenerator := jine.methodIdGenerator.returnToCurrentMethodId
    iparams := cleanupRetranformationInfo jine.iparams }

/-- The loop of `reAdaptMethod` over the loaded classes. The virtual machine may refuse to replace a class that has
    been visited, and the exception ends the loop. -/
def reAdaptMethod (data : MethodData) (isRecursiveAdaptation : Bool) (accepts : ClassFile → Bool) :
    Jine → List Loaded → Jine × List Loaded
  | jine, [] => (jine,[])
  | jine, entry :: rest =>
    if dotted entry.cls.name = dotted ((fqnParts data.fqn).headD "") then
      let made := instrumentClass (jine.onRetransformationStart data isRecursiveAdaptation) entry.profile entry.cls
      if accepts entry.cls then
        let later := reAdaptMethod data isRecursiveAdaptation accepts made.2.onRetransformationEnd rest
        (later.1,{ entry with codes := made.1,adaptedFor := some isRecursiveAdaptation } :: later.2)
      else (made.2,entry :: rest)
    else
      let later := reAdaptMethod data isRecursiveAdaptation accepts jine rest
      (later.1,entry :: later.2)

inductive Act
  | load (cls : ClassFile) (profile : Bool)
  | invalidateMethodProfiling (data : MethodData) (accepts : ClassFile → Bool)
  | adaptRecursiveMethod (data : MethodData) (accepts : ClassFile → Bool)

namespace Agent

def load (agent : Agent) (cls : ClassFile) (profile : Bool) : Agent :=
  let made := instrumentClass agent.jine profile cls
  { jine := made.2
    loaded := agent.loaded ++
      [{ cls,profile,codes := made.1,method0 := agent.jine.methodIdGenerator.getCurrentMethodId }] }

def invalidateMethodProfiling (agent : Agent) (data : MethodData) (accepts : ClassFile → Bool) : Agent :=
  let jine := { agent.jine with iparams := { agent.jine.iparams with
    invalidatedMethodIds := data.methodId :: agent.jine.iparams.invalidatedMethodIds } }
  let adapted := reAdaptMethod data false accepts jine agent.loaded
  { jine := adapted.1,loaded := adapted.2 }

def adaptRecursiveMethod (agent : Agent) (data : MethodData) (accepts : ClassFile → Bool) : Agent :=
  let jine := { agent.jine with iparams := { agent.jine.iparams with
    recursiveMethodIds := data.methodId :: agent.jine.iparams.recursiveMethodIds } }
  let adapted := reAdaptMethod data true accepts jine agent.loaded
  { jine := adapted.1,loaded := adapted.2 }

def step (agent : Agent) : Act → Option Agent
  | .load cls profile => some (agent.load cls profile)
  | .invalidateMethodProfiling data accepts => some (agent.invalidateMethodProfiling data accepts)
  | .adaptRecursiveMethod data accepts => some (agent.adaptRecursiveMethod data accepts)

end Agent

/-! ## What a visit does -/

/-- The number of a method, if it has got one. -/
def MethodCode.number (code : MethodCode) : Option Int :=
  code.adapter.bind fun adapter => if adapter.methodId = -1 then none else some adapter.methodId

/-- The method or its wrapper reports its entry and exit. -/
def MethodCode.reports (code : MethodCode) : Bool :=
  code.wrapper.any (·.profileMethod) || code.adapter.any fun adapter => adapter.profile && adapter.reports

/-- The methods that get a number. -/
def numbered (profiling : Bool) (iparams : InstrumentationParameters) (cls : ClassFile) (decl : MethodDecl) : Bool :=
  profiling && shouldMethodBeProfiled iparams cls.name decl.name && !cls.isInterface

/-- The synchronised methods that get a wrapper. -/
def wrapped (iparams : InstrumentationParameters) (decl : MethodDecl) : Bool :=
  decl.isSynchronized && (iparams.trapInteractionPoints || iparams.onlyLimitedJvmtiUsage)

/-- The reports a visit leaves to a numbered method: those of a wrapper unless the visit is for a method that is not
    recursive, and those of its own. -/
def kept (iparams : InstrumentationParameters) (decl : MethodDecl) (methodId : Int) : Bool :=
  wrapped iparams decl && !shouldInvalidateMethodProfilingOf iparams methodId ||
    !(decl.isSynchronized && iparams.trapInteractionPoints) && iparams.methodShouldBeAdapted methodId

/-- The virtual machine has no synchronised methods in interfaces, and the names of classes are without blanks. -/
structure ClassFile.Legal (cls : ClassFile) : Prop where
  name : ' ' ∉ cls.name.toList
  methods : cls.isInterface = true → ∀ decl ∈ cls.methods, decl.isSynchronized = false

/-- What one visit of a method does. -/
structure Visits (profiling : Bool) (cls : ClassFile) (decl : MethodDecl) (visited next : ClassVisit) (code : MethodCode) :
    Prop where
  codes : next.codes = visited.codes ++ [code]
  own : code.decl = decl
  number : code.number =
    if numbered profiling visited.jine.iparams cls decl then some visited.jine.methodIdGenerator.methodId else none
  reports : numbered profiling visited.jine.iparams cls decl = true →
    code.reports = kept visited.jine.iparams decl visited.jine.methodIdGenerator.methodId
  generator : next.jine.methodIdGenerator =
    { visited.jine.methodIdGenerator with
      methodId := visited.jine.methodIdGenerator.methodId +
        if numbered profiling visited.jine.iparams cls decl then 1 else 0 }
  registered : ∃ times, next.jine.registered = visited.jine.registered ++
      List.replicate times { fqn := fullName cls decl,methodId := visited.jine.methodIdGenerator.methodId
                             method0 := visited.jine.iparams.method0 } ∧
    (0 < times ↔ numbered profiling visited.jine.iparams cls decl = true ∧
      visited.jine.iparams.isRetransformingInstrumentation = false)
  iparams : ∃ set, next.jine.iparams = { visited.jine.iparams with vexOptimizerSet := set }

section Visit
variable {profiling : Bool} {cls : ClassFile} {decl : MethodDecl} {visited : ClassVisit}

/-- What is registered of a method. -/
def dataOf (jine : Jine) (cls : ClassFile) (decl : MethodDecl) : MethodData :=
  { fqn := fullName cls decl,methodId := jine.methodIdGenerator.methodId,method0 := jine.iparams.method0 }

theorem shouldBeWrapped_iparams (iparams : InstrumentationParameters) (name : String) :
    ∃ set, (iparams.shouldBeWrappedWithVexOptimizerLoop name).2 = { iparams with vexOptimizerSet := set } := by
  unfold InstrumentationParameters.shouldBeWrappedWithVexOptimizerLoop
  split
  · exact ⟨true,rfl⟩
  · exact ⟨iparams.vexOptimizerSet,rfl⟩

theorem newAdapter_iparams (jine : Jine) (methodId : Int) (isProfiled : Bool) (adaptationInfo : Option MethodAdaptationInfo) :
    ∃ set, (jine.newAdapter methodId isProfiled cls decl adaptationInfo).2.iparams =
      { jine.iparams with vexOptimizerSet := set } := by
  unfold Jine.newAdapter BasicBlockMethodAdapter.new
  dsimp only
  split
  · exact shouldBeWrapped_iparams _ _
  · exact ⟨jine.iparams.vexOptimizerSet,rfl⟩

theorem newAdapter_registered (jine : Jine) (methodId : Int) (isProfiled : Bool)
    (adaptationInfo : Option MethodAdaptationInfo) :
    (jine.newAdapter methodId isProfiled cls decl adaptationInfo).2.registered = jine.registered ++
      if (jine.newAdapter methodId isProfiled cls decl adaptationInfo).1.profile &&
          !jine.iparams.isRetransformingInstrumentation then
        [{ fqn := fullName cls decl,methodId,method0 := jine.iparams.method0 }]
      else [] := by
  unfold Jine.newAdapter
  dsimp only
  split
  · rfl
  · rw [List.append_nil]

theorem newAdapter_generator (jine : Jine) (methodId : Int) (isProfiled : Bool)
    (adaptationInfo : Option MethodAdaptationInfo) :
    (jine.newAdapter methodId isProfiled cls decl adaptationInfo).2.methodIdGenerator = jine.methodIdGenerator := by
  unfold Jine.newAdapter
  dsimp only
  split <;> rfl

theorem newAdapter_profile (jine : Jine) (methodId : Int) (isProfiled : Bool)
    (adaptationInfo : Option MethodAdaptationInfo) :
    (jine.newAdapter methodId isProfiled cls decl adaptationInfo).1.profile =
      (isProfiled && !(decl.isSynchronized &&
        (jine.iparams.trapInteractionPoints || jine.iparams.externalInstrumentation))) := rfl

/-- The optimiser's flag, which is all that the adapter of a method may change, stops no reports. -/
theorem newAdapter_reports (jine : Jine) (methodId : Int) (isProfiled : Bool)
    (adaptationInfo : Option MethodAdaptationInfo) (inside : jine.iparams.externalInstrumentation = false) :
    (jine.newAdapter methodId isProfiled cls decl adaptationInfo).1.reports =
      jine.iparams.methodShouldBeAdapted methodId := by
  have params : ∃ set, (jine.newAdapter methodId isProfiled cls decl adaptationInfo).1.iparams =
      { jine.iparams with vexOptimizerSet := set } :=
    @newAdapter_iparams cls decl jine methodId isProfiled adaptationInfo
  obtain ⟨set,same⟩ := params
  have own : (jine.newAdapter methodId isProfiled cls decl adaptationInfo).1.methodId = methodId := rfl
  rw [BasicBlockMethodAdapter.reports,same,own]
  simp [inside,InstrumentationParameters.methodShouldBeAdapted]

/-- A method without reports gets no number. -/
theorem visits_unprofiled (plain : (profiling && shouldMethodBeProfiled visited.jine.iparams cls.name decl.name) = false) :
    ∃ code, Visits profiling cls decl visited (ClassVisit.visitMethod profiling cls visited decl) code := by
  have none : numbered profiling visited.jine.iparams cls decl = false := by
    rw [numbered,plain,Bool.false_and]
  unfold ClassVisit.visitMethod
  rw [plain,if_pos (by rfl)]
  refine ⟨_,⟨rfl,rfl,?_,?_,?_,⟨0,?_,?_⟩,?_⟩⟩
  · rw [none]
    rfl
  · rw [none]
    intro numbers
    cases numbers
  · rw [none]
    simp [newAdapter_generator]
  · simp [newAdapter_registered,newAdapter_profile]
  · simp [none]
  · exact newAdapter_iparams _ _ _ _

theorem getNextMethodId_methodId {generator : SimpleMethodId} (positive : 0 ≤ generator.methodId)
    (room : generator.methodId + 1 < 2 ^ 31) :
    generator.getNextMethodId.2 = { generator with methodId := generator.methodId + 1 } := by
  rw [SimpleMethodId.getNextMethodId,Int.bmod_eq_of_le (by omega) (by omega)]

/-- The adapter of a numbered method, by the generator and what has been registered before. -/
theorem called_adapter (outside : cls.isInterface = false) (profiles : profiling = true) (start : ClassVisit)
    (inside : start.jine.iparams.externalInstrumentation = false)
    (positive : 0 ≤ start.jine.methodIdGenerator.methodId)
    (room : start.jine.methodIdGenerator.methodId + 1 < 2 ^ 31) :
    ∃ adapter next, start.callBasicBlockAdapter profiling cls decl = (some adapter,next) ∧ next.codes = start.codes ∧
      adapter.methodId = start.jine.methodIdGenerator.methodId ∧
      adapter.profile = !(decl.isSynchronized && start.jine.iparams.trapInteractionPoints) ∧
      adapter.reports = start.jine.iparams.methodShouldBeAdapted start.jine.methodIdGenerator.methodId ∧
      next.jine.methodIdGenerator =
        { start.jine.methodIdGenerator with methodId := start.jine.methodIdGenerator.methodId + 1 } ∧
      next.jine.registered = start.jine.registered ++
        (if adapter.profile && !start.jine.iparams.isRetransformingInstrumentation then
          [dataOf start.jine cls decl] else []) ∧
      ∃ set, next.jine.iparams = { start.jine.iparams with vexOptimizerSet := set } := by
  subst profiles
  unfold ClassVisit.callBasicBlockAdapter
  rw [if_neg (by simp [outside])]
  refine ⟨_,_,rfl,rfl,rfl,?_,?_,?_,?_,?_⟩
  · rw [newAdapter_profile]
    simp [inside]
  · exact newAdapter_reports _ _ _ _ inside
  · rw [newAdapter_generator]
    exact getNextMethodId_methodId positive room
  · exact newAdapter_registered _ _ _ _
  · exact newAdapter_iparams _ _ _ _

theorem wrapSynchronizedMethod_state (jine : Jine) (profileMethod : Bool) :
    (jine.wrapSynchronizedMethod cls decl profileMethod).2 = { jine with
      registered := jine.registered ++
        if profileMethod && !jine.iparams.isRetransformingInstrumentation then [dataOf jine cls decl] else [] } := by
  unfold Jine.wrapSynchronizedMethod
  dsimp only
  split
  · rfl
  · rw [List.append_nil]

/-- A method that is registered is never one whose class is visited again. -/
theorem shouldInvalidate_first (iparams : InstrumentationParameters) (methodId : Int)
    (first : iparams.isRetransformingInstrumentation = false) :
    shouldInvalidateMethodProfilingOf iparams methodId = false := by
  rw [shouldInvalidateMethodProfilingOf,first]
  simp

theorem number_of_adapter {adapter : BasicBlockMethodAdapter} {wrapper : Option Wrapper} {methodId : Int}
    (own : adapter.methodId = methodId) (positive : 0 ≤ methodId) :
    MethodCode.number { decl,wrapper,adapter := some adapter } = some methodId := by
  subst own
  have known : adapter.methodId ≠ -1 := by omega
  simp [MethodCode.number,known]

/-- A synchronised method with a wrapper is registered with it, and once more with its adapter where that reports
    as well. -/
theorem visits_wrapped (outside : cls.isInterface = false)
    (inside : visited.jine.iparams.externalInstrumentation = false)
    (positive : 0 ≤ visited.jine.methodIdGenerator.methodId)
    (room : visited.jine.methodIdGenerator.methodId + 1 < 2 ^ 31)
    (plain : (profiling && shouldMethodBeProfiled visited.jine.iparams cls.name decl.name) = true)
    (wraps : wrapped visited.jine.iparams decl = true) :
    ∃ code, Visits profiling cls decl visited (ClassVisit.visitMethod profiling cls visited decl) code := by
  have takes : numbered profiling visited.jine.iparams cls decl = true := by
    rw [numbered,plain,outside]
    rfl
  have profiles : profiling = true := (Bool.and_eq_true_iff.mp plain).1
  have branch : (decl.isSynchronized &&
      (visited.jine.iparams.trapInteractionPoints || visited.jine.iparams.onlyLimitedJvmtiUsage)) = true := wraps
  unfold ClassVisit.visitMethod
  rw [plain,if_neg (by decide),if_pos branch]
  dsimp only
  rw [wrapSynchronizedMethod_state]
  obtain ⟨adapter,next,called,codes,number,profile,reports,generator,registered,iparams⟩ :=
    @called_adapter profiling cls decl outside profiles
      { visited with jine := { visited.jine with
          registered := visited.jine.registered ++
            if !shouldInvalidateMethodProfilingOf visited.jine.iparams
                visited.jine.methodIdGenerator.getCurrentMethodId && !visited.jine.iparams.isRetransformingInstrumentation then
              [dataOf visited.jine cls decl] else [] } } inside positive room
  rw [called]
  refine ⟨{ decl,adapter := some adapter
            wrapper := some (visited.jine.wrapSynchronizedMethod cls decl
              (!shouldInvalidateMethodProfilingOf visited.jine.iparams
                visited.jine.methodIdGenerator.getCurrentMethodId)).1 },⟨?_,rfl,?_,?_,?_,?_,?_⟩⟩
  · rw [codes]
  · rw [number_of_adapter number positive,takes]
    rfl
  · intro _
    simp only [MethodCode.reports,Option.any_some,profile,reports,kept,wraps,Bool.true_and]
    rfl
  · rw [generator,takes]
    rfl
  · by_cases again : visited.jine.iparams.isRetransformingInstrumentation = true
    · refine ⟨0,?_,?_⟩
      · rw [registered]
        simp [again]
      · simp [again]
    · have first : visited.jine.iparams.isRetransformingInstrumentation = false := by simpa using again
      rw [registered,shouldInvalidate_first _ _ first,first]
      by_cases own : adapter.profile = true
      · refine ⟨2,?_,?_⟩
        · simp [own,dataOf,List.replicate]
        · simp [takes]
      · refine ⟨1,?_,?_⟩
        · simp [own,dataOf]
        · simp [takes]
  · exact iparams

theorem visits_unwrapped (outside : cls.isInterface = false)
    (inside : visited.jine.iparams.externalInstrumentation = false)
    (positive : 0 ≤ visited.jine.methodIdGenerator.methodId)
    (room : visited.jine.methodIdGenerator.methodId + 1 < 2 ^ 31)
    (plain : (profiling && shouldMethodBeProfiled visited.jine.iparams cls.name decl.name) = true)
    (unwrapped : wrapped visited.jine.iparams decl = false) :
    ∃ code, Visits profiling cls decl visited (ClassVisit.visitMethod profiling cls visited decl) code := by
  have takes : numbered profiling visited.jine.iparams cls decl = true := by
    rw [numbered,plain,outside]
    rfl
  have profiles : profiling = true := (Bool.and_eq_true_iff.mp plain).1
  have branch : (decl.isSynchronized &&
      (visited.jine.iparams.trapInteractionPoints || visited.jine.iparams.onlyLimitedJvmtiUsage)) = false := unwrapped
  have alone : (decl.isSynchronized && visited.jine.iparams.trapInteractionPoints) = false := by
    rw [Bool.and_or_distrib_left,Bool.or_eq_false_iff] at branch
    exact branch.1
  unfold ClassVisit.visitMethod
  rw [plain,if_neg (by decide),if_neg (by simp [branch])]
  obtain ⟨adapter,next,called,codes,number,profile,reports,generator,registered,iparams⟩ :=
    @called_adapter profiling cls decl outside profiles visited inside positive room
  rw [alone] at profile
  dsimp only
  rw [called]
  refine ⟨{ decl,wrapper := none,adapter := some adapter },⟨?_,rfl,?_,?_,?_,?_,?_⟩⟩
  · rw [codes]
  · rw [number_of_adapter number positive,takes]
    rfl
  · intro _
    simp [MethodCode.reports,profile,reports,kept,unwrapped,alone]
  · rw [generator,takes]
    rfl
  · rw [registered,profile]
    by_cases again : visited.jine.iparams.isRetransformingInstrumentation = true
    · exact ⟨0,by simp [again],by simp [again]⟩
    · exact ⟨1,by simp [again,dataOf],by simp [again,takes]⟩
  · exact iparams

/-- The methods of an interface get no number. -/
theorem visits_interface (outside : cls.isInterface = true) (legal : decl.isSynchronized = false)
    (plain : (profiling && shouldMethodBeProfiled visited.jine.iparams cls.name decl.name) = true) :
    ∃ code, Visits profiling cls decl visited (ClassVisit.visitMethod profiling cls visited decl) code := by
  have none : numbered profiling visited.jine.iparams cls decl = false := by
    rw [numbered,outside]
    simp
  have called : visited.callBasicBlockAdapter profiling cls decl = (Option.none,visited) := by
    rw [ClassVisit.callBasicBlockAdapter,if_pos outside]
  unfold ClassVisit.visitMethod
  rw [plain,if_neg (by decide),if_neg (by simp [legal]),called]
  refine ⟨_,⟨rfl,rfl,?_,?_,?_,⟨0,?_,?_⟩,?_⟩⟩
  · rw [none]
    rfl
  · rw [none]
    intro numbers
    cases numbers
  · rw [none]
    simp
  · simp
  · simp [none]
  · exact ⟨visited.jine.iparams.vexOptimizerSet,rfl⟩

theorem visitMethod_visits (legal : cls.isInterface = true → decl.isSynchronized = false)
    (inside : visited.jine.iparams.externalInstrumentation = false)
    (positive : 0 ≤ visited.jine.methodIdGenerator.methodId)
    (room : numbered profiling visited.jine.iparams cls decl = true →
      visited.jine.methodIdGenerator.methodId + 1 < 2 ^ 31) :
    ∃ code, Visits profiling cls decl visited (ClassVisit.visitMethod profiling cls visited decl) code := by
  by_cases plain : (profiling && shouldMethodBeProfiled visited.jine.iparams cls.name decl.name) = true
  · by_cases outside : cls.isInterface = true
    · exact visits_interface outside (legal outside) plain
    · have next := room (by simp [numbered,plain,outside])
      by_cases wraps : wrapped visited.jine.iparams decl = true
      · exact visits_wrapped (by simpa using outside) inside positive next plain wraps
      · exact visits_unwrapped (by simpa using outside) inside positive next plain (by simpa using wraps)
  · exact visits_unprofiled (by simpa using plain)

end Visit

/-! ## What the visit of a class does -/

/-- The numbers in order. -/
def numbers (takes : MethodDecl → Bool) : Int → List MethodDecl → List (Option Int)
  | _, [] => []
  | next, decl :: rest =>
    if takes decl then some next :: numbers takes (next + 1) rest else none :: numbers takes next rest

theorem mem_numbers {takes : MethodDecl → Bool} {next i : Int} {methods : List MethodDecl} :
    some i ∈ numbers takes next methods ↔ next ≤ i ∧ i < next + methods.countP takes := by
  induction methods generalizing next with
  | nil =>
    simp [numbers]
  | cons decl rest ih =>
    by_cases own : takes decl = true
    · rw [numbers,if_pos own,List.mem_cons,ih,List.countP_cons_of_pos own,Option.some.injEq]
      push_cast
      omega
    · rw [numbers,if_neg own,List.mem_cons,ih,List.countP_cons_of_neg own]
      simp

/-- What the visits of the methods do, in all. -/
structure ClassVisited (profiling : Bool) (cls : ClassFile) (methods : List MethodDecl) (visited next : ClassVisit)
    (codes : List MethodCode) : Prop where
  made : next.codes = visited.codes ++ codes
  own : codes.map MethodCode.decl = methods
  ids : codes.map MethodCode.number =
    numbers (numbered profiling visited.jine.iparams cls) visited.jine.methodIdGenerator.methodId methods
  reports : ∀ code ∈ codes, ∀ i, code.number = some i → code.reports = kept visited.jine.iparams code.decl i
  generator : next.jine.methodIdGenerator =
    { visited.jine.methodIdGenerator with
      methodId := visited.jine.methodIdGenerator.methodId +
        methods.countP (numbered profiling visited.jine.iparams cls) }
  registered : ∃ news, next.jine.registered = visited.jine.registered ++ news ∧ ∀ data, data ∈ news ↔
    visited.jine.iparams.isRetransformingInstrumentation = false ∧ ∃ code ∈ codes, ∃ i, code.number = some i ∧
      data = { fqn := fullName cls code.decl,methodId := i,method0 := visited.jine.iparams.method0 }
  iparams : ∃ set, next.jine.iparams = { visited.jine.iparams with vexOptimizerSet := set }

theorem visitMethods_visited {profiling : Bool} {cls : ClassFile} (methods : List MethodDecl) {visited : ClassVisit}
    (legal : cls.isInterface = true → ∀ decl ∈ methods, decl.isSynchronized = false)
    (inside : visited.jine.iparams.externalInstrumentation = false)
    (positive : 0 ≤ visited.jine.methodIdGenerator.methodId)
    (room : visited.jine.methodIdGenerator.methodId + methods.countP (numbered profiling visited.jine.iparams cls) <
      2 ^ 31) :
    ∃ codes, ClassVisited profiling cls methods visited (methods.foldl (ClassVisit.visitMethod profiling cls) visited)
      codes := by
  induction methods generalizing visited with
  | nil =>
    refine ⟨[],⟨by simp,rfl,rfl,by simp,by simp,⟨[],by simp,by simp⟩,⟨visited.jine.iparams.vexOptimizerSet,rfl⟩⟩⟩
  | cons decl rest ih =>
    have early : numbered profiling visited.jine.iparams cls decl = true →
        visited.jine.methodIdGenerator.methodId + 1 < 2 ^ 31 := by
      intro own
      rw [List.countP_cons_of_pos own] at room
      omega
    obtain ⟨code,first⟩ := @visitMethod_visits profiling cls decl visited (fun outside => legal outside decl (by simp))
      inside positive early
    obtain ⟨set,iparams⟩ := first.iparams
    rw [List.foldl_cons]
    generalize ClassVisit.visitMethod profiling cls visited decl = next at first iparams ⊢
    have takes : numbered profiling next.jine.iparams cls = numbered profiling visited.jine.iparams cls := by
      rw [iparams]
      rfl
    have room' : next.jine.methodIdGenerator.methodId + rest.countP (numbered profiling next.jine.iparams cls) <
        2 ^ 31 := by
      rw [takes,first.generator]
      rw [List.countP_cons] at room
      push_cast at room
      dsimp only
      omega
    obtain ⟨codes,later⟩ := @ih next (fun outside decl member => legal outside decl (List.mem_cons_of_mem _ member))
      (by rw [iparams]; exact inside) (by rw [first.generator]; dsimp only; split <;> omega) room'
    have keeps : kept next.jine.iparams = kept visited.jine.iparams := by
      rw [iparams]
      rfl
    refine ⟨code :: codes,⟨?_,?_,?_,?_,?_,?_,?_⟩⟩
    · rw [later.made,first.codes,List.append_assoc]
      rfl
    · rw [List.map_cons,first.own,later.own]
    · rw [List.map_cons,first.number,later.ids,takes,first.generator,numbers]
      split <;> simp
    · intro other member i number
      rcases List.mem_cons.mp member with rfl | member
      · rw [first.number] at number
        split at number
        · rename_i own
          rw [Option.some.injEq] at number
          rw [first.reports own,first.own,number]
        · cases number
      · rw [later.reports other member i number,keeps]
    · rw [later.generator,first.generator,takes]
      by_cases own : numbered profiling visited.jine.iparams cls decl = true
      · rw [List.countP_cons_of_pos own,if_pos own]
        simp only [SimpleMethodId.mk.injEq,and_true]
        push_cast
        omega
      · rw [List.countP_cons_of_neg own,if_neg own]
        simp
    · obtain ⟨times,early,often⟩ := first.registered
      obtain ⟨news,late,known⟩ := later.registered
      refine ⟨_,by rw [late,early,List.append_assoc],?_⟩
      have again : next.jine.iparams.isRetransformingInstrumentation =
          visited.jine.iparams.isRetransformingInstrumentation := by
        rw [iparams]
        rfl
      have zero : next.jine.iparams.method0 = visited.jine.iparams.method0 := by
        rw [iparams]
      intro data
      rw [List.mem_append,List.mem_replicate,known,again,zero]
      simp only [List.mem_cons,exists_eq_or_imp]
      constructor
      · rintro (⟨some,rfl⟩ | ⟨again,other,member,i,number,rfl⟩)
        · obtain ⟨own,again⟩ := often.mp (Nat.pos_of_ne_zero some)
          exact ⟨again,.inl ⟨_,by rw [first.number,if_pos own],by rw [first.own]⟩⟩
        · exact ⟨again,.inr ⟨other,member,i,number,rfl⟩⟩
      · rintro ⟨again,⟨i,number,rfl⟩ | ⟨other,member,i,number,rfl⟩⟩
        · rw [first.number] at number
          split at number
          · rename_i own
            rw [Option.some.injEq] at number
            subst number
            exact .inl ⟨Nat.pos_iff_ne_zero.mp (often.mpr ⟨own,again⟩),by rw [first.own]⟩
          · cases number
        · exact .inr ⟨again,other,member,i,number,rfl⟩
    · obtain ⟨set',later_iparams⟩ := later.iparams
      exact ⟨set',by rw [later_iparams,iparams]⟩

/-- The parameters of a class as it is opened. -/
def opened (jine : Jine) (cls : ClassFile) : InstrumentationParameters :=
  { (if jine.iparams.isRetransformingInstrumentation then jine.iparams
    else { jine.iparams with method0 := jine.methodIdGenerator.getCurrentMethodId }) with
    subclassOfJavaLangThread := cls.superName == "java/lang/Thread" }

theorem opened_numbered (jine : Jine) (cls : ClassFile) (profiling : Bool) :
    numbered profiling (opened jine cls) cls = numbered profiling jine.iparams cls := by
  unfold opened
  split <;> rfl

theorem opened_kept (jine : Jine) (cls : ClassFile) : kept (opened jine cls) = kept jine.iparams := by
  unfold opened
  split <;> rfl

theorem opened_again (jine : Jine) (cls : ClassFile) :
    (opened jine cls).isRetransformingInstrumentation = jine.iparams.isRetransformingInstrumentation := by
  unfold opened
  split <;> rfl

theorem opened_external (jine : Jine) (cls : ClassFile) :
    (opened jine cls).externalInstrumentation = jine.iparams.externalInstrumentation := by
  unfold opened
  split <;> rfl

theorem instrumentClass_visited (jine : Jine) (profiling : Bool) {cls : ClassFile} (legal : cls.Legal)
    (inside : jine.iparams.externalInstrumentation = false) (positive : 0 ≤ jine.methodIdGenerator.methodId)
    (room : jine.methodIdGenerator.methodId + cls.methods.countP (numbered profiling jine.iparams cls) < 2 ^ 31) :
    ∃ next, instrumentClass jine profiling cls = (next.codes,next.jine) ∧
      ClassVisited profiling cls cls.methods { jine := { jine with iparams := opened jine cls } } next next.codes := by
  obtain ⟨codes,visited⟩ := @visitMethods_visited profiling cls cls.methods
    { jine := { jine with iparams := opened jine cls } } legal.methods (by rw [opened_external]; exact inside) positive
    (by rw [opened_numbered]; exact room)
  have made := visited.made
  rw [List.nil_append] at made
  refine ⟨cls.methods.foldl (ClassVisit.visitMethod profiling cls) { jine := { jine with iparams := opened jine cls } },
    rfl,?_⟩
  rw [made]
  exact visited

/-- A visit again registers nothing. -/
theorem instrumentClass_again (jine : Jine) (profiling : Bool) {cls : ClassFile} (legal : cls.Legal)
    (inside : jine.iparams.externalInstrumentation = false) (positive : 0 ≤ jine.methodIdGenerator.methodId)
    (room : jine.methodIdGenerator.methodId + cls.methods.countP (numbered profiling jine.iparams cls) < 2 ^ 31)
    (again : jine.iparams.isRetransformingInstrumentation = true) :
    ∃ next, instrumentClass jine profiling cls = (next.codes,next.jine) ∧
      ClassVisited profiling cls cls.methods { jine := { jine with iparams := opened jine cls } } next next.codes ∧
      next.jine.registered = jine.registered := by
  obtain ⟨next,made,visited⟩ := instrumentClass_visited jine profiling legal inside positive room
  refine ⟨next,made,visited,?_⟩
  obtain ⟨news,same,none⟩ := visited.registered
  have empty : news = [] := by
    apply List.eq_nil_iff_forall_not_mem.mpr
    intro data member
    have idle := ((none data).mp member).1
    rw [opened_again,again] at idle
    cases idle
  rw [same,empty,List.append_nil]

/-! ## Runs -/

/-- The classes whose methods get numbers, by the options. -/
def Loaded.takes (iparams : InstrumentationParameters) (entry : Loaded) : MethodDecl → Bool :=
  numbered entry.profile iparams entry.cls

/-- How many numbers a class has got. -/
def Loaded.count (iparams : InstrumentationParameters) (entry : Loaded) : Nat :=
  entry.cls.methods.countP (entry.takes iparams)

/-- The reports of a numbered method after the last visit of its class. -/
def Loaded.reporting (iparams : InstrumentationParameters) (entry : Loaded) (decl : MethodDecl) (methodId : Int) : Bool :=
  wrapped iparams decl && !(entry.adaptedFor == some false && iparams.invalidatedMethodIds.contains methodId) ||
    !(decl.isSynchronized && iparams.trapInteractionPoints) && iparams.methodShouldBeAdapted methodId

/-- What is known of a loaded class. -/
structure Loaded.Sound (jine : Jine) (entry : Loaded) : Prop where
  legal : entry.cls.Legal
  own : entry.codes.map MethodCode.decl = entry.cls.methods
  ids : entry.codes.map MethodCode.number = numbers (entry.takes jine.iparams) entry.method0 entry.cls.methods
  first : 110 ≤ entry.method0
  last : entry.method0 + entry.count jine.iparams ≤ jine.methodIdGenerator.methodId
  reports : ∀ code ∈ entry.codes, ∀ i, code.number = some i →
    code.reports = entry.reporting jine.iparams code.decl i

/-- What the registry has of a class. -/
def Loaded.Has (entry : Loaded) (data : MethodData) : Prop := ∃ code ∈ entry.codes, ∃ i,
  code.number = some i ∧ data = { fqn := fullName entry.cls code.decl,methodId := i,method0 := entry.method0 }

/-- The classes have different names and different numbers, all numbers are taken, and the registry has all of them. -/
structure Numbered (agent : Agent) : Prop where
  resting : agent.jine.iparams.retransformingMethodId = 0
  inside : agent.jine.iparams.externalInstrumentation = false
  low : 110 ≤ agent.jine.methodIdGenerator.methodId
  high : agent.jine.methodIdGenerator.methodId < 2 ^ 31
  sound : ∀ entry ∈ agent.loaded, entry.Sound agent.jine
  apart : agent.loaded.Pairwise fun entry other => dotted entry.cls.name ≠ dotted other.cls.name ∧
    entry.method0 + (entry.count agent.jine.iparams : Int) ≤ other.method0
  dense : ∀ i, 110 ≤ i → i < agent.jine.methodIdGenerator.methodId →
    ∃ entry ∈ agent.loaded, some i ∈ entry.codes.map MethodCode.number
  registered : ∀ data, data ∈ agent.jine.registered ↔ ∃ entry ∈ agent.loaded, entry.Has data

/-! ## The names -/

theorem head_fqnParts {cls : ClassFile} (legal : cls.Legal) (decl : MethodDecl) :
    (fqnParts (fullName cls decl)).headD "" = cls.name := by
  have text : (fullName cls decl).toList =
      cls.name.toList ++ ' ' :: (decl.name.toList ++ ' ' :: decl.desc.toList) := by
    simp [fullName,String.toList_append]
  rw [fqnParts,text,List.splitOn_append_cons_self_of_not_mem legal.name]
  simp

section Loop
variable {data : MethodData} {isRecursiveAdaptation : Bool} {accepts : ClassFile → Bool}

theorem reAdaptMethod_others (jine : Jine) {loaded : List Loaded}
    (others : ∀ other ∈ loaded, dotted other.cls.name ≠ dotted ((fqnParts data.fqn).headD "")) :
    reAdaptMethod data isRecursiveAdaptation accepts jine loaded = (jine,loaded) := by
  induction loaded with
  | nil => rfl
  | cons entry rest ih =>
    rw [reAdaptMethod,if_neg (others entry (by simp)),ih fun other member => others other (List.mem_cons_of_mem _ member)]

/-- Where only one class has the name, only that is visited again. -/
theorem reAdaptMethod_one (jine : Jine) {before after : List Loaded} {entry : Loaded}
    (own : dotted entry.cls.name = dotted ((fqnParts data.fqn).headD ""))
    (others : ∀ other ∈ before ++ after, dotted other.cls.name ≠ dotted entry.cls.name) :
    reAdaptMethod data isRecursiveAdaptation accepts jine (before ++ entry :: after) =
      let made := instrumentClass (jine.onRetransformationStart data isRecursiveAdaptation) entry.profile entry.cls
      if accepts entry.cls then
        (made.2.onRetransformationEnd,
          before ++ { entry with codes := made.1,adaptedFor := some isRecursiveAdaptation } :: after)
      else (made.2,before ++ entry :: after) := by
  induction before with
  | nil =>
    have rest : ∀ jine, reAdaptMethod data isRecursiveAdaptation accepts jine after = (jine,after) := by
      intro jine
      apply reAdaptMethod_others
      intro other member
      rw [← own]
      exact others other (by simpa using member)
    rw [List.nil_append,reAdaptMethod,if_pos own]
    simp only [rest,List.nil_append]
  | cons first before ih =>
    have skipped : dotted first.cls.name ≠ dotted ((fqnParts data.fqn).headD "") := by
      rw [← own]
      exact others first (by simp)
    rw [List.cons_append,reAdaptMethod,if_neg skipped,ih fun other member => others other (by
      rw [List.cons_append]
      exact List.mem_cons_of_mem _ member)]
    by_cases accepted : accepts entry.cls = true
    · simp [accepted]
    · simp [accepted]

end Loop

/-! ## What the steps keep -/

/-- The options that decide about numbers and wrappers. -/
structure Alike (iparams other : InstrumentationParameters) : Prop where
  profiledMethodNames : other.profiledMethodNames = iparams.profiledMethodNames
  trapInteractionPoints : other.trapInteractionPoints = iparams.trapInteractionPoints
  jvmtiUsage : other.jvmtiUsage = iparams.jvmtiUsage

theorem Alike.takes {iparams other : InstrumentationParameters} (alike : Alike iparams other) (entry : Loaded) :
    entry.takes other = entry.takes iparams := by
  funext decl
  simp only [Loaded.takes,numbered,shouldMethodBeProfiled,alike.profiledMethodNames]

theorem Alike.count {iparams other : InstrumentationParameters} (alike : Alike iparams other) (entry : Loaded) :
    entry.count other = entry.count iparams := by
  rw [Loaded.count,alike.takes]
  rfl

theorem Alike.wrapped {iparams other : InstrumentationParameters} (alike : Alike iparams other) (decl : MethodDecl) :
    wrapped other decl = wrapped iparams decl := by
  simp only [MethodIds.wrapped,InstrumentationParameters.onlyLimitedJvmtiUsage,alike.trapInteractionPoints,
    alike.jvmtiUsage]

namespace Loaded
variable {entry : Loaded} {jine other : Jine}

theorem Sound.mem_iff (sound : entry.Sound jine) {i : Int} :
    some i ∈ entry.codes.map MethodCode.number ↔
      entry.method0 ≤ i ∧ i < entry.method0 + entry.count jine.iparams := by
  rw [sound.ids,mem_numbers]
  rfl

/-- A class that is not visited stays as it is, while only other methods are marked. -/
theorem Sound.moved (sound : entry.Sound jine) (alike : Alike jine.iparams other.iparams)
    (later : jine.methodIdGenerator.methodId ≤ other.methodIdGenerator.methodId)
    (unmarked : ∀ i, some i ∈ entry.codes.map MethodCode.number →
      (i ∈ other.iparams.invalidatedMethodIds ↔ i ∈ jine.iparams.invalidatedMethodIds) ∧
      (i ∈ other.iparams.recursiveMethodIds ↔ i ∈ jine.iparams.recursiveMethodIds)) : entry.Sound other := by
  refine ⟨sound.legal,sound.own,?_,sound.first,?_,?_⟩
  · rw [alike.takes]
    exact sound.ids
  · rw [alike.count]
    exact sound.last.trans later
  · intro code member i number
    obtain ⟨invalid,again⟩ := unmarked i (number ▸ List.mem_map_of_mem member)
    rw [sound.reports code member i number]
    simp only [Loaded.reporting,alike.wrapped,alike.trapInteractionPoints,List.contains_eq_mem,
      InstrumentationParameters.methodShouldBeAdapted,invalid,again]

/-- What is left of a visit of a class again: the numbers are the same, and the next number as well. -/
structure Revisited (entry : Loaded) (marked : Jine) (isRecursiveAdaptation : Bool) (made : List MethodCode × Jine) :
    Prop where
  sound : Sound made.2.onRetransformationEnd
    { entry with codes := made.1,adaptedFor := some isRecursiveAdaptation }
  ids : made.1.map MethodCode.number = entry.codes.map MethodCode.number
  current : made.2.onRetransformationEnd.methodIdGenerator.methodId = marked.methodIdGenerator.methodId
  registered : made.2.registered = marked.registered
  iparams : ∃ set super method0 name desc, cleanupRetranformationInfo made.2.iparams =
    { marked.iparams with
      vexOptimizerSet := set,subclassOfJavaLangThread := super,method0
      retransformingMethodId := 0,recursiveRetransformation := false
      retransformingMethodName := name,retransformingMethodDesc := desc }

/-- A class is visited again from its first number on. -/
theorem Sound.visited_again {marked : Jine} {data : MethodData} (sound : entry.Sound jine) (isRecursiveAdaptation : Bool)
    (alike : Alike jine.iparams marked.iparams) (inside : marked.iparams.externalInstrumentation = false)
    (high : jine.methodIdGenerator.methodId < 2 ^ 31) (first : data.method0 = entry.method0)
    (known : data.methodId ≠ 0) :
    let started := marked.onRetransformationStart data isRecursiveAdaptation
    started.iparams.isRetransformingInstrumentation = true ∧
      ∃ next, instrumentClass started entry.profile entry.cls = (next.codes,next.jine) ∧
        ClassVisited entry.profile entry.cls entry.cls.methods
          { jine := { started with iparams := opened started entry.cls } } next next.codes ∧
        next.jine.registered = marked.registered := by
  have low : 0 ≤ data.method0 := by
    have := sound.first
    omega
  have again : (marked.onRetransformationStart data isRecursiveAdaptation).iparams.isRetransformingInstrumentation =
      true := by
    simp [Jine.onRetransformationStart,setRetranformationInfo,
      InstrumentationParameters.isRetransformingInstrumentation,known]
  have room : data.method0 + entry.cls.methods.countP (numbered entry.profile marked.iparams entry.cls) < 2 ^ 31 := by
    have last := sound.last
    rw [← alike.count,Loaded.count] at last
    rw [first]
    exact last.trans_lt high
  exact ⟨again,instrumentClass_again (marked.onRetransformationStart data isRecursiveAdaptation) entry.profile
    sound.legal inside low room again⟩

theorem Sound.revisited {marked : Jine} {data : MethodData} (sound : entry.Sound jine) (isRecursiveAdaptation : Bool)
    (alike : Alike jine.iparams marked.iparams) (inside : marked.iparams.externalInstrumentation = false)
    (current : marked.methodIdGenerator = jine.methodIdGenerator) (high : jine.methodIdGenerator.methodId < 2 ^ 31)
    (first : data.method0 = entry.method0)
    (known : data.methodId ≠ 0) :
    Revisited entry marked isRecursiveAdaptation
      (instrumentClass (marked.onRetransformationStart data isRecursiveAdaptation) entry.profile entry.cls) := by
  obtain ⟨again,next,made,visited,registered⟩ :=
    sound.visited_again isRecursiveAdaptation alike inside high first known
  have takes : numbered entry.profile (opened (marked.onRetransformationStart data isRecursiveAdaptation) entry.cls)
      entry.cls = entry.takes jine.iparams := by
    rw [opened_numbered,← alike.takes]
    rfl
  have ids : next.codes.map MethodCode.number = entry.codes.map MethodCode.number := by
    rw [visited.ids,takes,sound.ids,← first]
    rfl
  obtain ⟨set,iparams⟩ := visited.iparams
  have cleaned : ∃ set super method0 name desc, cleanupRetranformationInfo next.jine.iparams =
      { marked.iparams with
        vexOptimizerSet := set,subclassOfJavaLangThread := super,method0
        retransformingMethodId := 0,recursiveRetransformation := false
        retransformingMethodName := name,retransformingMethodDesc := desc } := by
    rw [iparams]
    unfold opened
    rw [if_pos again]
    exact ⟨_,_,_,_,_,rfl⟩
  rw [made]
  refine ⟨?_,ids,?_,registered,cleaned⟩
  · obtain ⟨set,super,method0,name,desc,cleaned⟩ := cleaned
    have options : Alike jine.iparams next.jine.onRetransformationEnd.iparams := by
      show Alike jine.iparams (cleanupRetranformationInfo next.jine.iparams)
      rw [cleaned]
      exact ⟨alike.profiledMethodNames,alike.trapInteractionPoints,alike.jvmtiUsage⟩
    refine ⟨sound.legal,visited.own,?_,sound.first,?_,?_⟩
    · show next.codes.map MethodCode.number = numbers (entry.takes _) entry.method0 entry.cls.methods
      rw [options.takes,ids,sound.ids]
    · show entry.method0 + entry.count _ ≤ _
      rw [options.count]
      show _ ≤ next.jine.methodIdGenerator.previousMethodId
      rw [visited.generator]
      show _ ≤ marked.methodIdGenerator.methodId
      rw [current]
      exact sound.last
    · intro code member i number
      rw [visited.reports code member i number,opened_kept]
      show _ = reporting (cleanupRetranformationInfo next.jine.iparams) _ code.decl i
      rw [cleaned]
      simp only [kept,reporting,shouldInvalidateMethodProfilingOf,again]
      cases isRecursiveAdaptation <;> rfl
  · show next.jine.methodIdGenerator.previousMethodId = _
    rw [visited.generator]
    rfl

end Loaded

theorem Loaded.has_iff {entry : Loaded} {data : MethodData} : entry.Has data ↔
    ∃ decl i, (decl,some i) ∈ (entry.codes.map MethodCode.decl).zip (entry.codes.map MethodCode.number) ∧
      data = { fqn := fullName entry.cls decl,methodId := i,method0 := entry.method0 } := by
  have pairs : (entry.codes.map MethodCode.decl).zip (entry.codes.map MethodCode.number) =
      entry.codes.map fun code => (code.decl,code.number) := List.zip_map' ..
  rw [pairs]
  constructor
  · rintro ⟨code,member,i,number,rfl⟩
    exact ⟨code.decl,i,List.mem_map.mpr ⟨code,member,by rw [number]⟩,rfl⟩
  · rintro ⟨decl,i,member,rfl⟩
    obtain ⟨code,listed,same⟩ := List.mem_map.mp member
    obtain ⟨rfl,number⟩ := Prod.mk.inj same
    exact ⟨code,listed,i,number,rfl⟩

/-- Where the class of a registered method was loaded: the other classes have other names, and none of its numbers. -/
structure Place (agent : Agent) (data : MethodData) (before : List Loaded) (entry : Loaded) (after : List Loaded) :
    Prop where
  split : agent.loaded = before ++ entry :: after
  had : entry.Has data
  own : dotted entry.cls.name = dotted ((fqnParts data.fqn).headD "")
  first : data.method0 = entry.method0
  low : 110 ≤ data.methodId
  listed : ∀ other ∈ before ++ after, other ∈ agent.loaded
  others : ∀ other ∈ before ++ after, dotted other.cls.name ≠ dotted entry.cls.name
  elsewhere : ∀ other ∈ before ++ after, ∀ i, some i ∈ other.codes.map MethodCode.number → i ≠ data.methodId

theorem Place.mem {agent : Agent} {data : MethodData} {before after : List Loaded} {entry : Loaded}
    (place : Place agent data before entry after) : entry ∈ agent.loaded := by
  rw [place.split]
  exact List.mem_append_right before List.mem_cons_self

theorem Numbered.place {agent : Agent} (kept : Numbered agent) {data : MethodData}
    (member : data ∈ agent.jine.registered) : ∃ before entry after, Place agent data before entry after := by
  obtain ⟨entry,listed,had⟩ := (kept.registered data).mp member
  have sound := kept.sound entry listed
  have low := sound.first
  obtain ⟨code,inCode,i,number,same⟩ := had
  have taken : some i ∈ entry.codes.map MethodCode.number := number ▸ List.mem_map_of_mem inCode
  have range := sound.mem_iff.mp taken
  have identity : data.methodId = i := by rw [same]
  obtain ⟨before,after,split⟩ := List.append_of_mem listed
  have apart := kept.apart
  rw [split] at apart
  have order := List.pairwise_append.mp apart
  have behind := List.pairwise_cons.mp order.2.1
  have known : ∀ other ∈ before ++ after, other ∈ agent.loaded := by
    intro other among
    rw [split]
    rcases List.mem_append.mp among with early | late
    · exact List.mem_append_left _ early
    · exact List.mem_append_right _ (List.mem_cons_of_mem _ late)
  refine ⟨before,entry,after,split,⟨code,inCode,i,number,same⟩,?_,by rw [same],by omega,known,?_,?_⟩
  · rw [same,head_fqnParts sound.legal]
  · intro other among
    rcases List.mem_append.mp among with early | late
    · exact (order.2.2 other early entry List.mem_cons_self).1
    · exact (behind.1 other late).1.symm
  · intro other among j taken
    have bounds := (kept.sound other (known other among)).mem_iff.mp taken
    rcases List.mem_append.mp among with early | late
    · have := (order.2.2 other early entry List.mem_cons_self).2
      omega
    · have := (behind.1 other late).2
      omega

/-- Every method keeps its number. -/
def table (loaded : List Loaded) : List (ClassFile × List (Option Int)) :=
  loaded.map fun entry => (entry.cls,entry.codes.map MethodCode.number)

/-- A visit again, with the method marked, keeps all numbers. -/
theorem readapted {agent : Agent} (kept : Numbered agent) {marked : Jine} {data : MethodData}
    {isRecursiveAdaptation : Bool} {accepts : ClassFile → Bool} (alike : Alike agent.jine.iparams marked.iparams)
    (inside : marked.iparams.externalInstrumentation = false)
    (current : marked.methodIdGenerator = agent.jine.methodIdGenerator)
    (registry : marked.registered = agent.jine.registered)
    (unmarked : ∀ i, i ≠ data.methodId →
      (i ∈ marked.iparams.invalidatedMethodIds ↔ i ∈ agent.jine.iparams.invalidatedMethodIds) ∧
      (i ∈ marked.iparams.recursiveMethodIds ↔ i ∈ agent.jine.iparams.recursiveMethodIds))
    (member : data ∈ agent.jine.registered) (accepted : ∀ entry ∈ agent.loaded, accepts entry.cls = true) :
    Numbered { jine := (reAdaptMethod data isRecursiveAdaptation accepts marked agent.loaded).1
               loaded := (reAdaptMethod data isRecursiveAdaptation accepts marked agent.loaded).2 } ∧
      table (reAdaptMethod data isRecursiveAdaptation accepts marked agent.loaded).2 = table agent.loaded := by
  obtain ⟨before,entry,after,place⟩ := kept.place member
  have listed := place.mem
  have low := place.low
  have sound := kept.sound entry listed
  have split := place.split
  have apart := kept.apart
  rw [split] at apart
  have order := List.pairwise_append.mp apart
  have behind := List.pairwise_cons.mp order.2.1
  have again := sound.revisited isRecursiveAdaptation alike inside current kept.high place.first (by omega)
  have visited := @reAdaptMethod_one data isRecursiveAdaptation accepts marked before after entry place.own place.others
  rw [← split] at visited
  dsimp only at visited
  rw [if_pos (accepted entry listed)] at visited
  rw [visited]
  generalize instrumentClass (marked.onRetransformationStart data isRecursiveAdaptation) entry.profile entry.cls =
    made at again
  obtain ⟨set,super,method0,name,desc,cleaned⟩ := again.iparams
  have iparams : made.2.onRetransformationEnd.iparams = cleanupRetranformationInfo made.2.iparams := rfl
  have options : Alike agent.jine.iparams made.2.onRetransformationEnd.iparams := by
    rw [iparams,cleaned]
    exact ⟨alike.profiledMethodNames,alike.trapInteractionPoints,alike.jvmtiUsage⟩
  have next : made.2.onRetransformationEnd.methodIdGenerator.methodId = agent.jine.methodIdGenerator.methodId := by
    rw [again.current,current]
  have has : ∀ data, Loaded.Has { entry with codes := made.1,adaptedFor := some isRecursiveAdaptation } data ↔
      entry.Has data := by
    intro data
    rw [Loaded.has_iff,Loaded.has_iff]
    dsimp only
    rw [again.sound.own,again.ids,sound.own]
  refine ⟨⟨?_,?_,?_,?_,?_,?_,?_,?_⟩,?_⟩
  · show (made.2.onRetransformationEnd).iparams.retransformingMethodId = 0
    rfl
  · dsimp only
    rw [iparams,cleaned]
    exact inside
  · dsimp only
    rw [next]
    exact kept.low
  · dsimp only
    rw [next]
    exact kept.high
  · intro other among
    have moved : ∀ other ∈ before ++ after, other.Sound made.2.onRetransformationEnd := by
      intro other among
      refine (kept.sound other (place.listed other among)).moved options next.ge ?_
      intro j taken
      rw [iparams,cleaned]
      exact unmarked j (place.elsewhere other among j taken)
    rcases List.mem_append.mp among with early | late
    · exact moved other (List.mem_append_left _ early)
    · rcases List.mem_cons.mp late with rfl | late
      · exact again.sound
      · exact moved other (List.mem_append_right _ late)
  · simp only [options.count]
    refine List.pairwise_append.mpr ⟨order.1,List.pairwise_cons.mpr ⟨behind.1,behind.2⟩,?_⟩
    intro other early third late
    rcases List.mem_cons.mp late with rfl | late
    · exact order.2.2 other early entry (by simp)
    · exact order.2.2 other early third (List.mem_cons_of_mem _ late)
  · intro j lower upper
    dsimp only at upper
    rw [next] at upper
    obtain ⟨other,among,taken⟩ := kept.dense j lower upper
    rw [split] at among
    rcases List.mem_append.mp among with early | late
    · exact ⟨other,List.mem_append_left _ early,taken⟩
    · rcases List.mem_cons.mp late with rfl | late
      · refine ⟨_,List.mem_append_right _ List.mem_cons_self,?_⟩
        dsimp only
        rw [again.ids]
        exact taken
      · exact ⟨other,List.mem_append_right _ (List.mem_cons_of_mem _ late),taken⟩
  · intro data
    show data ∈ made.2.registered ↔ _
    rw [again.registered,registry,kept.registered,split]
    simp only [List.mem_append,List.mem_cons]
    constructor
    · rintro ⟨other,early | rfl | late,had⟩
      · exact ⟨other,.inl early,had⟩
      · exact ⟨_,.inr (.inl rfl),(has data).mpr had⟩
      · exact ⟨other,.inr (.inr late),had⟩
    · rintro ⟨other,early | rfl | late,had⟩
      · exact ⟨other,.inl early,had⟩
      · exact ⟨entry,.inr (.inl rfl),(has data).mp had⟩
      · exact ⟨other,.inr (.inr late),had⟩
  · rw [split]
    simp only [table,List.map_append,List.map_cons,again.ids]

/-- A class that is loaded gets the next numbers. -/
theorem loaded {agent : Agent} (kept : Numbered agent) {cls : ClassFile} (profile : Bool) (legal : cls.Legal)
    (fresh : ∀ entry ∈ agent.loaded, dotted entry.cls.name ≠ dotted cls.name)
    (room : agent.jine.methodIdGenerator.methodId + cls.methods.length < 2 ^ 31) :
    Numbered (agent.load cls profile) ∧ ∃ more, table (agent.load cls profile).loaded = table agent.loaded ++ more := by
  have low := kept.low
  have most := cls.methods.countP_le_length (p := numbered profile agent.jine.iparams cls)
  obtain ⟨next,made,visited⟩ := instrumentClass_visited agent.jine profile legal kept.inside (by omega) (by omega)
  have idle : agent.jine.iparams.isRetransformingInstrumentation = false := by
    simp [InstrumentationParameters.isRetransformingInstrumentation,kept.resting]
  have parameters : opened agent.jine cls = { agent.jine.iparams with
      method0 := agent.jine.methodIdGenerator.methodId
      subclassOfJavaLangThread := cls.superName == "java/lang/Thread" } := by
    unfold opened
    rw [if_neg (by simp [idle])]
    rfl
  have takes := opened_numbered agent.jine cls profile
  obtain ⟨set,iparams⟩ := visited.iparams
  dsimp only at iparams
  rw [parameters] at iparams
  have options : Alike agent.jine.iparams next.jine.iparams := by
    rw [iparams]
    exact ⟨rfl,rfl,rfl⟩
  have counted : next.jine.methodIdGenerator.methodId =
      agent.jine.methodIdGenerator.methodId + cls.methods.countP (numbered profile agent.jine.iparams cls) := by
    rw [visited.generator,takes]
  obtain ⟨news,registered,known⟩ := visited.registered
  have loading : agent.load cls profile = { jine := next.jine,loaded := agent.loaded ++
      [{ cls,profile,codes := next.codes,method0 := agent.jine.methodIdGenerator.methodId }] } := by
    rw [Agent.load,made]
    rfl
  have own : Loaded.Sound next.jine
      { cls,profile,codes := next.codes,method0 := agent.jine.methodIdGenerator.methodId } := by
    refine ⟨legal,visited.own,?_,low,?_,?_⟩
    · rw [options.takes,visited.ids,takes]
      rfl
    · rw [options.count,counted]
      exact le_rfl
    · intro code member i number
      rw [visited.reports code member i number,opened_kept]
      simp only [MethodIds.kept,Loaded.reporting,shouldInvalidate_first _ _ idle,iparams,
        InstrumentationParameters.methodShouldBeAdapted]
      rfl
  rw [loading]
  refine ⟨⟨?_,?_,?_,?_,?_,?_,?_,?_⟩,?_⟩
  · dsimp only
    rw [iparams]
    exact kept.resting
  · dsimp only
    rw [iparams]
    exact kept.inside
  · dsimp only
    omega
  · dsimp only
    omega
  · intro entry member
    rcases List.mem_append.mp member with early | late
    · refine (kept.sound entry early).moved options (show _ ≤ next.jine.methodIdGenerator.methodId by omega) ?_
      intro i _
      rw [iparams]
      exact ⟨Iff.rfl,Iff.rfl⟩
    · rw [List.mem_singleton] at late
      exact late ▸ own
  · refine List.pairwise_append.mpr ⟨?_,List.pairwise_singleton _ _,?_⟩
    · simp only [options.count]
      exact kept.apart
    · intro entry early other late
      rw [List.mem_singleton] at late
      subst late
      refine ⟨fresh entry early,?_⟩
      rw [options.count]
      exact (kept.sound entry early).last
  · intro i lower upper
    by_cases early : i < agent.jine.methodIdGenerator.methodId
    · obtain ⟨entry,member,taken⟩ := kept.dense i lower early
      exact ⟨entry,List.mem_append_left _ member,taken⟩
    · refine ⟨_,List.mem_append_right _ (List.mem_singleton.mpr rfl),?_⟩
      rw [own.mem_iff]
      refine ⟨by simpa using early,?_⟩
      rw [options.count]
      show i < agent.jine.methodIdGenerator.methodId + (cls.methods.countP (numbered profile agent.jine.iparams cls) : Nat)
      rw [← counted]
      exact upper
  · intro data
    dsimp only
    rw [registered,List.mem_append,known,kept.registered]
    simp only [List.mem_append,List.mem_singleton]
    constructor
    · rintro (⟨entry,member,had⟩ | ⟨-,code,member,i,number,same⟩)
      · exact ⟨entry,.inl member,had⟩
      · refine ⟨_,.inr rfl,code,member,i,number,?_⟩
        rw [same,parameters]
    · rintro ⟨entry,member | rfl,had⟩
      · exact .inl ⟨entry,member,had⟩
      · obtain ⟨code,member,i,number,same⟩ := had
        refine .inr ⟨by rw [opened_again,idle],code,member,i,number,?_⟩
        rw [same,parameters]
  · exact ⟨_,by rw [table,List.map_append]; rfl⟩

/-- Classes of new names are loaded as long as there are `int`s for their methods, and registered methods are adapted
    in classes that can be replaced. -/
def Orderly (agent : Agent) : Act → Prop
  | .load cls _ => cls.Legal ∧ (∀ entry ∈ agent.loaded, dotted entry.cls.name ≠ dotted cls.name) ∧
    agent.jine.methodIdGenerator.methodId + cls.methods.length < 2 ^ 31
  | .invalidateMethodProfiling data accepts =>
    data ∈ agent.jine.registered ∧ ∀ entry ∈ agent.loaded, accepts entry.cls = true
  | .adaptRecursiveMethod data accepts =>
    data ∈ agent.jine.registered ∧ ∀ entry ∈ agent.loaded, accepts entry.cls = true

theorem step_kept {agent next : Agent} {act : Act} (kept : Numbered agent) (orderly : Orderly agent act)
    (stepped : agent.step act = some next) :
    Numbered next ∧ ∃ more, table next.loaded = table agent.loaded ++ more := by
  cases act with
  | load cls profile =>
    cases stepped
    exact loaded kept profile orderly.1 orderly.2.1 orderly.2.2
  | invalidateMethodProfiling data accepts =>
    cases stepped
    have marks : ∀ i, i ≠ data.methodId → (i ∈ data.methodId :: agent.jine.iparams.invalidatedMethodIds ↔
        i ∈ agent.jine.iparams.invalidatedMethodIds) := by
      intro i other
      rw [List.mem_cons,or_iff_right other]
    obtain ⟨kept',same⟩ := @readapted agent kept { agent.jine with iparams := { agent.jine.iparams with
        invalidatedMethodIds := data.methodId :: agent.jine.iparams.invalidatedMethodIds } } data false accepts
      ⟨rfl,rfl,rfl⟩ kept.inside rfl rfl (fun i other => ⟨marks i other,Iff.rfl⟩) orderly.1 orderly.2
    exact ⟨kept',[],by rw [List.append_nil]; exact same⟩
  | adaptRecursiveMethod data accepts =>
    cases stepped
    have marks : ∀ i, i ≠ data.methodId → (i ∈ data.methodId :: agent.jine.iparams.recursiveMethodIds ↔
        i ∈ agent.jine.iparams.recursiveMethodIds) := by
      intro i other
      rw [List.mem_cons,or_iff_right other]
    obtain ⟨kept',same⟩ := @readapted agent kept { agent.jine with iparams := { agent.jine.iparams with
        recursiveMethodIds := data.methodId :: agent.jine.iparams.recursiveMethodIds } } data true accepts
      ⟨rfl,rfl,rfl⟩ kept.inside rfl rfl (fun i other => ⟨Iff.rfl,marks i other⟩) orderly.1 orderly.2
    exact ⟨kept',[],by rw [List.append_nil]; exact same⟩

/-- The options a run starts with. -/
structure Starting (iparams : InstrumentationParameters) : Prop where
  resting : iparams.retransformingMethodId = 0
  inside : iparams.externalInstrumentation = false

theorem numbered_start {iparams : InstrumentationParameters} (starting : Starting iparams) :
    Numbered { jine := { iparams } } := by
  refine ⟨starting.resting,starting.inside,le_rfl,show (110 : Int) < 2 ^ 31 by decide,by simp,List.Pairwise.nil,?_,
    by simp⟩
  intro i lower upper
  exact absurd upper (not_lt.mpr lower)

theorem run_kept {agent last : Agent} {acts : List Act} (kept : Numbered agent)
    (orderly : Meets Agent.step Orderly agent acts) (reached : run Agent.step agent acts = some last) :
    Numbered last ∧ ∃ more, table last.loaded = table agent.loaded ++ more := by
  induction acts generalizing agent with
  | nil =>
    cases reached
    exact ⟨kept,[],by rw [List.append_nil]⟩
  | cons act rest ih =>
    obtain ⟨next,stepped,onward⟩ := (run_cons agent act rest last).mp reached
    obtain ⟨kept',more,grown⟩ := step_kept kept orderly.1 stepped
    obtain ⟨final,later,grown'⟩ := ih kept' (orderly.2 next stepped) onward
    exact ⟨final,more ++ later,by rw [grown',grown,List.append_assoc]⟩

theorem nodup_numbers {takes : MethodDecl → Bool} {next : Int} {methods : List MethodDecl} :
    (numbers takes next methods).reduceOption.Nodup := by
  induction methods generalizing next with
  | nil => exact List.nodup_nil
  | cons decl rest ih =>
    by_cases own : takes decl = true
    · rw [numbers,if_pos own,List.reduceOption_cons_of_some,List.nodup_cons]
      refine ⟨?_,ih⟩
      rw [List.reduceOption_mem_iff,mem_numbers]
      omega
    · rw [numbers,if_neg own,List.reduceOption_cons_of_none]
      exact ih

theorem distinct {agent : Agent} (kept : Numbered agent) :
    ((table agent.loaded).flatMap fun entry => entry.2.reduceOption).Nodup := by
  rw [table,List.flatMap_map,List.nodup_flatMap]
  constructor
  · intro entry member
    dsimp only
    rw [(kept.sound entry member).ids]
    exact nodup_numbers
  · have sound := kept.sound
    refine kept.apart.imp_of_mem ?_
    intro entry other early late order i taken taken'
    dsimp only at taken taken'
    rw [List.reduceOption_mem_iff,(sound _ early).mem_iff] at taken
    rw [List.reduceOption_mem_iff,(sound _ late).mem_iff] at taken'
    omega

/-- Over every orderly run a method keeps the number it got when its class was loaded, different methods have
    different numbers, and the registry has exactly these. -/
theorem numbers_kept {iparams : InstrumentationParameters} (starting : Starting iparams) {before later : List Act}
    {agent last : Agent} (orderly : Meets Agent.step Orderly { jine := { iparams } } (before ++ later))
    (reached : run Agent.step { jine := { iparams } } before = some agent) (onward : run Agent.step agent later = some last) :
    (∃ more, table last.loaded = table agent.loaded ++ more) ∧
      ((table last.loaded).flatMap fun entry => entry.2.reduceOption).Nodup ∧
      ∀ data, data ∈ last.jine.registered ↔ ∃ entry ∈ last.loaded, entry.Has data := by
  obtain ⟨kept,-⟩ := run_kept (numbered_start starting) (Runs.meets_of_earlier orderly) reached
  obtain ⟨kept',grown⟩ := run_kept kept (meets_of_append orderly reached) onward
  exact ⟨grown,distinct kept',kept'.registered⟩

/-- A class with a synchronised method. -/
def account : ClassFile where
  name := "bank/Account"
  superName := "java/lang/Object"
  isInterface := false
  methods := [{ access := 1,name := "deposit",desc := "(I)V",exceptions := [] },
    { access := 33,name := "transfer",desc := "()V",exceptions := ["bank/Overdrawn"] }]

def withAccount : Agent := Agent.load {} account true

def deposit : MethodData := { fqn := "bank/Account deposit (I)V",methodId := 110,method0 := 110 }

theorem account_legal : account.Legal := ⟨by decide,by decide⟩

theorem deposit_registered : deposit ∈ withAccount.jine.registered := by decide

theorem account_orderly :
    Meets Agent.step Orderly {} ([.load account true] ++ [.invalidateMethodProfiling deposit fun _ => true]) := by
  refine ⟨⟨account_legal,by simp,by decide⟩,?_⟩
  intro next stepped
  cases stepped
  exact ⟨⟨deposit_registered,fun _ _ => rfl⟩,fun _ _ => trivial⟩

theorem numbers_kept_account :
    (∃ more, table (withAccount.invalidateMethodProfiling deposit fun _ => true).loaded =
        table withAccount.loaded ++ more) ∧
      ((table (withAccount.invalidateMethodProfiling deposit fun _ => true).loaded).flatMap fun entry =>
        entry.2.reduceOption).Nodup ∧
      ∀ data, data ∈ (withAccount.invalidateMethodProfiling deposit fun _ => true).jine.registered ↔
        ∃ entry ∈ (withAccount.invalidateMethodProfiling deposit fun _ => true).loaded, entry.Has data :=
  numbers_kept ⟨rfl,rfl⟩ account_orderly rfl rfl

/-- The new names are needed. When a class of a name that another loader has loaded already is there, a visit again for
    a method of the first visits both, and the methods of the second get the numbers of the first. -/
theorem second_class_renumbered :
    table ((withAccount.load account true).invalidateMethodProfiling deposit fun _ => true).loaded =
        [(account,[some 110,some 111]),(account,[some 110,some 111])] ∧
      table (withAccount.load account true).loaded =
        [(account,[some 110,some 111]),(account,[some 112,some 113])] :=
  ⟨rfl,rfl⟩

/-- In every state of an orderly run a numbered method reports as long as it is neither invalidated nor adapted as
    recursive. One with a wrapper is silent exactly when it is invalidated and its class has last been visited again
    for a method that is not recursive. -/
theorem reports_iff {iparams : InstrumentationParameters} (starting : Starting iparams) {acts : List Act} {last : Agent}
    (orderly : Meets Agent.step Orderly { jine := { iparams } } acts)
    (reached : run Agent.step { jine := { iparams } } acts = some last) {entry : Loaded} (member : entry ∈ last.loaded)
    {code : MethodCode} (listed : code ∈ entry.codes) {i : Int} (number : code.number = some i) :
    code.reports = true ↔
      if wrapped last.jine.iparams code.decl then
        i ∉ last.jine.iparams.invalidatedMethodIds ∨ entry.adaptedFor ≠ some false
      else i ∉ last.jine.iparams.invalidatedMethodIds ∧ i ∉ last.jine.iparams.recursiveMethodIds := by
  obtain ⟨kept,-⟩ := run_kept (numbered_start starting) orderly reached
  rw [(kept.sound entry member).reports code listed i number]
  unfold Loaded.reporting
  by_cases wraps : wrapped last.jine.iparams code.decl = true
  · rw [if_pos wraps]
    by_cases invalid : i ∈ last.jine.iparams.invalidatedMethodIds
    · by_cases again : entry.adaptedFor = some false
      · simp [wraps,invalid,again,InstrumentationParameters.methodShouldBeAdapted]
      · simp [wraps,invalid,again]
    · simp [wraps,invalid]
  · have alone : (code.decl.isSynchronized && last.jine.iparams.trapInteractionPoints) = false := by
      rw [wrapped,Bool.and_or_distrib_left,Bool.or_eq_true,not_or] at wraps
      simpa using wraps.1
    rw [if_neg wraps]
    simp [wraps,alone,InstrumentationParameters.methodShouldBeAdapted]

def transfer : MethodData := { fqn := "bank/Account transfer ()V",methodId := 111,method0 := 110 }

/-- The synchronised method is invalidated, then the other one turns out to be recursive. -/
def trapped : List Act :=
  [.load account true,.invalidateMethodProfiling transfer fun _ => true,.adaptRecursiveMethod deposit fun _ => true]

def afterTrapped : Agent :=
  (((Agent.load { jine := { iparams := { trapInteractionPoints := true } } } account true).invalidateMethodProfiling
    transfer fun _ => true).adaptRecursiveMethod deposit fun _ => true)

theorem trapped_orderly : Meets Agent.step Orderly { jine := { iparams := { trapInteractionPoints := true } } } trapped := by
  refine ⟨⟨account_legal,by simp,show (110 + 2 : Int) < 2 ^ 31 by decide⟩,?_⟩
  intro next stepped
  cases stepped
  refine ⟨⟨by decide,fun _ _ => rfl⟩,?_⟩
  intro next stepped
  cases stepped
  exact ⟨⟨by decide,fun _ _ => rfl⟩,fun _ _ => trivial⟩

/-- The wrapper of the synchronised method reports again. -/
theorem reports_iff_trapped :
    ∃ entry ∈ afterTrapped.loaded, ∃ code ∈ entry.codes, code.number = some 111 ∧ code.reports = true ∧
      (code.reports = true ↔
        if wrapped afterTrapped.jine.iparams code.decl then
          111 ∉ afterTrapped.jine.iparams.invalidatedMethodIds ∨ entry.adaptedFor ≠ some false
        else 111 ∉ afterTrapped.jine.iparams.invalidatedMethodIds ∧ 111 ∉ afterTrapped.jine.iparams.recursiveMethodIds) := by
  have member : ∃ entry ∈ afterTrapped.loaded, ∃ code ∈ entry.codes, code.number = some 111 ∧ code.reports = true := by
    refine ⟨_,List.mem_cons_self,_,List.mem_cons_of_mem _ List.mem_cons_self,?_,?_⟩
    · decide
    · decide
  obtain ⟨entry,among,code,listed,number,reports⟩ := member
  exact ⟨entry,among,code,listed,number,reports,
    reports_iff ⟨rfl,rfl⟩ trapped_orderly rfl among listed number⟩

/-! ## A class that cannot be replaced -/

/-- A visit of either kind for a registered method whose class the virtual machine refuses to replace. -/
def Refuses (agent : Agent) (data : MethodData) : Act → Prop
  | .load _ _ => False
  | .invalidateMethodProfiling own accepts =>
    own = data ∧ data ∈ agent.jine.registered ∧ ∀ entry ∈ agent.loaded, accepts entry.cls = false
  | .adaptRecursiveMethod own accepts =>
    own = data ∧ data ∈ agent.jine.registered ∧ ∀ entry ∈ agent.loaded, accepts entry.cls = false

/-- What a refusal leaves: the numbers stay rolled back behind those of the class, and the visit is still said to be
    one again. -/
structure Stuck (agent : Agent) (entry : Loaded) (jine : Jine) : Prop where
  registered : jine.registered = agent.jine.registered
  current : jine.methodIdGenerator.methodId = entry.method0 + entry.count agent.jine.iparams
  again : jine.iparams.isRetransformingInstrumentation = true
  inside : jine.iparams.externalInstrumentation = false
  alike : Alike agent.jine.iparams jine.iparams

theorem reAdaptMethod_refused {agent : Agent} (kept : Numbered agent) {marked : Jine} {data : MethodData}
    {isRecursiveAdaptation : Bool} {accepts : ClassFile → Bool} (alike : Alike agent.jine.iparams marked.iparams)
    (inside : marked.iparams.externalInstrumentation = false) (registry : marked.registered = agent.jine.registered)
    (member : data ∈ agent.jine.registered) (refused : ∀ entry ∈ agent.loaded, accepts entry.cls = false) :
    ∃ entry ∈ agent.loaded, entry.Has data ∧ ∃ jine,
      reAdaptMethod data isRecursiveAdaptation accepts marked agent.loaded = (jine,agent.loaded) ∧
        Stuck agent entry jine := by
  obtain ⟨before,entry,after,place⟩ := kept.place member
  have listed := place.mem
  have low := place.low
  obtain ⟨again,next,made,visited,registered⟩ := (kept.sound entry listed).visited_again isRecursiveAdaptation
    alike inside kept.high place.first (by omega)
  have adapted := @reAdaptMethod_one data isRecursiveAdaptation accepts marked before after entry place.own place.others
  rw [← place.split,made] at adapted
  dsimp only at adapted
  rw [if_neg (by simp [refused entry listed])] at adapted
  obtain ⟨set,iparams⟩ := visited.iparams
  have opens : opened (marked.onRetransformationStart data isRecursiveAdaptation) entry.cls =
      { (marked.onRetransformationStart data isRecursiveAdaptation).iparams with
        subclassOfJavaLangThread := entry.cls.superName == "java/lang/Thread" } := by
    unfold opened
    rw [if_pos again]
  dsimp only at iparams
  rw [opens] at iparams
  refine ⟨entry,listed,place.had,next.jine,adapted,⟨registered.trans registry,?_,?_,?_,?_⟩⟩
  · rw [visited.generator,opened_numbered,← place.first,← alike.count]
    rfl
  · rw [iparams]
    exact again
  · rw [iparams]
    exact inside
  · rw [iparams]
    exact ⟨alike.profiledMethodNames,alike.trapInteractionPoints,alike.jvmtiUsage⟩

/-- A class that is loaded then is numbered from there, and nothing of it is registered. -/
theorem Stuck.load {agent : Agent} {entry : Loaded} {jine : Jine} (stuck : Stuck agent entry jine) {cls : ClassFile}
    (profile : Bool) (legal : cls.Legal) (low : 0 ≤ entry.method0)
    (room : entry.method0 + entry.count agent.jine.iparams + cls.methods.length < 2 ^ 31) :
    (({ jine,loaded := agent.loaded } : Agent).load cls profile).jine.registered = agent.jine.registered ∧
      ∃ ids, table (({ jine,loaded := agent.loaded } : Agent).load cls profile).loaded =
          table agent.loaded ++ [(cls,ids)] ∧
        ∀ i, some i ∈ ids ↔ entry.method0 + entry.count agent.jine.iparams ≤ i ∧
          i < entry.method0 + entry.count agent.jine.iparams +
            cls.methods.countP (numbered profile agent.jine.iparams cls) := by
  have current := stuck.current
  have most := cls.methods.countP_le_length (p := numbered profile jine.iparams cls)
  obtain ⟨next,made,visited,registered⟩ := instrumentClass_again jine profile legal stuck.inside (by omega) (by omega)
    stuck.again
  have takes : numbered profile (opened jine cls) cls = numbered profile agent.jine.iparams cls := by
    rw [opened_numbered]
    exact stuck.alike.takes { cls,profile,codes := [],method0 := 0 }
  unfold Agent.load
  rw [made]
  refine ⟨registered.trans stuck.registered,next.codes.map MethodCode.number,by simp [table],?_⟩
  intro i
  rw [visited.ids,mem_numbers,takes,current]

/-- Where the virtual machine refuses to replace the class, the numbers stay rolled back behind those of the class and
    the visit stays said to be one again. So nothing is registered of the class that is loaded next, and it gets
    the numbers of other methods as long as there are such. -/
theorem refused_numbers_taken {iparams : InstrumentationParameters} (starting : Starting iparams) {acts : List Act}
    {agent : Agent} (orderly : Meets Agent.step Orderly { jine := { iparams } } acts)
    (reached : run Agent.step { jine := { iparams } } acts = some agent) {data : MethodData} {act : Act}
    (refuses : Refuses agent data act) {next : Agent} (stepped : agent.step act = some next) {cls : ClassFile}
    (profile : Bool) (legal : cls.Legal)
    (room : agent.jine.methodIdGenerator.methodId + cls.methods.length < 2 ^ 31) :
    ∃ entry ∈ agent.loaded, entry.Has data ∧ (next.load cls profile).jine.registered = agent.jine.registered ∧
      ∃ ids, table (next.load cls profile).loaded = table agent.loaded ++ [(cls,ids)] ∧
        (∀ i, some i ∈ ids ↔ entry.method0 + entry.count agent.jine.iparams ≤ i ∧
          i < entry.method0 + entry.count agent.jine.iparams +
            cls.methods.countP (numbered profile agent.jine.iparams cls)) ∧
        ∀ i, some i ∈ ids → i < agent.jine.methodIdGenerator.methodId →
          ∃ other ∈ agent.loaded, some i ∈ other.codes.map MethodCode.number := by
  obtain ⟨kept,-⟩ := run_kept (numbered_start starting) orderly reached
  have left : ∃ entry ∈ agent.loaded, entry.Has data ∧ ∃ jine, next = { jine,loaded := agent.loaded } ∧
      Stuck agent entry jine := by
    cases act with
    | load other profile => exact refuses.elim
    | invalidateMethodProfiling own accepts =>
      obtain ⟨rfl,member,refused⟩ := refuses
      cases stepped
      obtain ⟨entry,listed,had,jine,adapted,stuck⟩ := @reAdaptMethod_refused agent kept
        { agent.jine with iparams := { agent.jine.iparams with
            invalidatedMethodIds := own.methodId :: agent.jine.iparams.invalidatedMethodIds } } own false accepts
        ⟨rfl,rfl,rfl⟩ kept.inside rfl member refused
      exact ⟨entry,listed,had,jine,by rw [Agent.invalidateMethodProfiling,adapted],stuck⟩
    | adaptRecursiveMethod own accepts =>
      obtain ⟨rfl,member,refused⟩ := refuses
      cases stepped
      obtain ⟨entry,listed,had,jine,adapted,stuck⟩ := @reAdaptMethod_refused agent kept
        { agent.jine with iparams := { agent.jine.iparams with
            recursiveMethodIds := own.methodId :: agent.jine.iparams.recursiveMethodIds } } own true accepts
        ⟨rfl,rfl,rfl⟩ kept.inside rfl member refused
      exact ⟨entry,listed,had,jine,by rw [Agent.adaptRecursiveMethod,adapted],stuck⟩
  obtain ⟨entry,listed,had,jine,rfl,stuck⟩ := left
  have low := (kept.sound entry listed).first
  have last := (kept.sound entry listed).last
  obtain ⟨registered,ids,grown,known⟩ := stuck.load profile legal (by omega) (by omega)
  refine ⟨entry,listed,had,registered,ids,grown,known,?_⟩
  intro i taken early
  exact kept.dense i (by have := (known i).mp taken; omega) early

def customer : ClassFile where
  name := "bank/Customer"
  superName := "java/lang/Object"
  isInterface := false
  methods := [{ access := 1,name := "pay",desc := "()V",exceptions := [] }]

def withCustomer : Agent := withAccount.load customer true

theorem customer_orderly : Meets Agent.step Orderly {} [.load account true,.load customer true] := by
  refine ⟨⟨account_legal,by simp,by decide⟩,?_⟩
  intro next stepped
  cases stepped
  exact ⟨⟨⟨by decide,by decide⟩,by decide,by decide⟩,fun _ _ => trivial⟩

def bill : ClassFile := { customer with name := "bank/Bill" }

/-- The class of the recursive method is refused, and the class that is loaded next gets the number of the customer. -/
theorem refused_numbers_taken_bill :
    ∃ entry ∈ withCustomer.loaded, entry.Has deposit ∧
      ((withCustomer.adaptRecursiveMethod deposit fun _ => false).load bill true).jine.registered =
        withCustomer.jine.registered ∧
      ∃ ids, table ((withCustomer.adaptRecursiveMethod deposit fun _ => false).load bill true).loaded =
          table withCustomer.loaded ++ [(bill,ids)] ∧
        (∀ i, some i ∈ ids ↔ entry.method0 + entry.count withCustomer.jine.iparams ≤ i ∧
          i < entry.method0 + entry.count withCustomer.jine.iparams +
            bill.methods.countP (numbered true withCustomer.jine.iparams bill)) ∧
        ∀ i, some i ∈ ids → i < withCustomer.jine.methodIdGenerator.methodId →
          ∃ other ∈ withCustomer.loaded, some i ∈ other.codes.map MethodCode.number :=
  refused_numbers_taken ⟨rfl,rfl⟩ customer_orderly rfl
    (show Refuses withCustomer deposit (.adaptRecursiveMethod deposit fun _ => false) from
      ⟨rfl,by decide,fun _ _ => rfl⟩) rfl true ⟨by decide,by decide⟩ (by decide)

end Vexjine.MethodIds
