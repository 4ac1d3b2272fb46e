import Vexjine.Runs

/-!
# The simulated I/O of threads

Any number of threads that enter and leave I/O methods, with the predictor's
count of the threads in I/O, the choice of the prediction method, and the
protocol. A step is one access to shared data, or one thread's own statements
between two of these. What the recognizer and the excluder say comes from
outside, and so does the method log's current method.
-/

namespace Vexjine.IoSimulation
set_option linter.unusedSimpArgs false
set_option linter.unusedSectionVars false

/-- The objects of `predictionMethods`, of the maps `predictionsPerInvocationPoint` and of `predictionsPerIoOperation`. -/
inductive PredictionMethod
  | ofThreads (threadsInIo : UInt32)
  | ofInvocationPoint (threadsInIo : UInt32) (traceHash : Int32)
  | ofOperation (threadsInIo : UInt32) (methodId : Int32)
  deriving DecidableEq

inductive Predictor
  | noIoPrediction
  | globalIoPrediction
  | stateAwareIoPrediction
  | operationAwareIoPrediction
  deriving DecidableEq

/-- What an I/O is started and ended with: nothing, the serial protocol or the configured one. -/
inductive Protocol
  | ignored
  | serialSystemCallRealTime
  | parallelIoRealTime
  deriving DecidableEq

/-- Whether a recognizer and an excluder are set, and whether the configured protocol is `IoProtocolNormal`. -/
structure Parameters where
  predictor : Predictor
  recognizer : Bool
  excluder : Bool
  normal : Bool

/-- Where a thread is in `startIo` and `endIo`. -/
inductive Position
  | outside      -- also inside the I/O itself
  | entered      -- about to increase `threadsInIo`
  | counted      -- about to look up the prediction method
  | predicted    -- about to ask the recognizer and the excluder
  | cached       -- about to decrease `threadsInIo` again
  | starting     -- about to run the protocol's `onStart`
  | exiting      -- about to decrease `threadsInIo`
  | uncounted    -- about to add its measurement
  | ending       -- about to run the protocol's `onEnd`
  deriving DecidableEq

/-- `IoHandler::invalidIoInvocationPoint`. -/
def invalidIoInvocationPoint (stackDepth : UInt32) (invocationPointHashValue : Int32) : Bool :=
  decide (stackDepth = 0) && decide (invocationPointHashValue ≠ 1)

/-- An I/O method that a thread has entered and not left: the stack depth and the hash of its entry, the protocol that
    started it, the prediction method it found, with the other I/O in progress and the thread's number of lookups
    then. -/
structure Call where
  stackDepth : UInt32
  invocationPointHashValue : Int32
  protocol : Option Protocol := none
  predictionMethod : Option PredictionMethod := none
  others : Nat := 0
  lookup : Nat := 0

/-- Its entry has started an I/O. -/
def Call.valid (call : Call) : Bool := !invalidIoInvocationPoint call.stackDepth call.invocationPointHashValue

/-- A thread's `IoHandler`. The calls, the innermost first, and the number of lookups are read by no step. -/
structure IoHandler where
  stackDepth : UInt32 := 0
  ioInvocationPointHashValue : Int32 := 0
  stackTraceHash : Int32 := 0
  ignoringIo : Bool := false
  recognizingIoAsCached : Bool := false
  lastIoPredictionMethod : Option PredictionMethod
  position : Position := .outside
  calls : List Call := []
  lookups : Nat := 0

/-- The measurements are those of all prediction methods, the last one first. `inside` and `pending` list the thread of
    each I/O that `threadsInIo` or `pendingIoCalls` counts. -/
structure State (Thread : Type) where
  threadsInIo : UInt32
  pendingIoCalls : Int := 0
  measurements : List (PredictionMethod × Int) := []
  threads : Thread → IoHandler
  inside : List Thread := []
  pending : List Thread := []

/-- Neither the count nor the prediction methods are initialised. -/
def initial {Thread : Type} (threadsInIo : UInt32) (lastIoPredictionMethod : Thread → Option PredictionMethod) :
    State Thread :=
  { threadsInIo, threads := fun t => { lastIoPredictionMethod := lastIoPredictionMethod t } }

namespace IoHandler
variable (handler : IoHandler)

def setPosition (position : Position) : IoHandler := { handler with position }

/-- Changes the innermost call. -/
def note (f : Call → Call) : IoHandler :=
  match handler.calls with
  | [] => handler
  | call :: outer => { handler with calls := f call :: outer }

def pop : IoHandler := { handler with calls := handler.calls.tail }

def enteringMethod (methodId : Int32) : IoHandler :=
  { handler with stackDepth := handler.stackDepth + 1, stackTraceHash := handler.stackTraceHash + methodId }

def exitingMethod (methodId : Int32) : IoHandler :=
  { handler with stackDepth := handler.stackDepth - 1, stackTraceHash := handler.stackTraceHash - methodId }

def afterIoMethodEntry (invocationPointHashValue : Int32) : IoHandler :=
  let noted := { handler with calls := { stackDepth := handler.stackDepth, invocationPointHashValue } :: handler.calls }
  if invalidIoInvocationPoint handler.stackDepth invocationPointHashValue then noted
  else { noted with ioInvocationPointHashValue := invocationPointHashValue, position := .entered }

def beforeIoMethodExit : IoHandler :=
  if invalidIoInvocationPoint handler.stackDepth handler.ioInvocationPointHashValue then handler.pop
  else handler.setPosition .exiting

def getIoUniqueInvocationPoint : Int32 := handler.ioInvocationPointHashValue * handler.stackTraceHash

/-- The choice of `IoProtocolEnforcer`. Without a recognizer and an excluder, when there is none, both flags stay
    clear. -/
def protocol : Protocol :=
  if handler.ignoringIo then .ignored
  else if handler.recognizingIoAsCached then .serialSystemCallRealTime
  else .parallelIoRealTime

def resetIoStateFlags : IoHandler := { handler with recognizingIoAsCached := false, ignoringIo := false }

end IoHandler

def maxNumberOfThreadsPerformingIoInParallel : UInt32 := 32

def totalIoOperations : Int32 := 30

/-- `IoState::getThreadsInIO`. -/
def getThreadsInIo (threadsInIo : UInt32) : UInt32 :=
  if maxNumberOfThreadsPerformingIoInParallel ≤ threadsInIo then maxNumberOfThreadsPerformingIoInParallel - 1
  else threadsInIo

/-- The method that `getPredictionValue` takes. -/
def predictionMethodAtStart (predictor : Predictor) (threadsInIo : UInt32) (handler : IoHandler)
    (currentMethodId : Int32) : Option PredictionMethod :=
  match predictor with
  | .noIoPrediction => none
  | .globalIoPrediction => some (.ofThreads (threadsInIo - 1))
  | .stateAwareIoPrediction =>
    some (.ofInvocationPoint (getThreadsInIo threadsInIo) handler.getIoUniqueInvocationPoint)
  | .operationAwareIoPrediction => some (.ofOperation threadsInIo currentMethodId)

/-- The method that `addPredictionInfo` takes, the cached one where there is one. -/
def predictionMethodAtEnd (predictor : Predictor) (threadsInIo : UInt32) (handler : IoHandler)
    (currentMethodId : Int32) : Option PredictionMethod :=
  match predictor with
  | .noIoPrediction => none
  | .globalIoPrediction => some (.ofThreads threadsInIo)
  | .stateAwareIoPrediction => handler.lastIoPredictionMethod.or
      (some (.ofInvocationPoint (getThreadsInIo threadsInIo) handler.getIoUniqueInvocationPoint))
  | .operationAwareIoPrediction =>
    handler.lastIoPredictionMethod.or (some (.ofOperation threadsInIo currentMethodId))

inductive Event (Thread : Type)
  | enteringMethod (t : Thread) (methodId : Int32)
  | exitingMethod (t : Thread) (methodId : Int32)
  | afterIoMethodEntry (t : Thread) (invocationPointHashValue : Int32)
  | increaseThreadsInIo (t : Thread)
  | getPredictionValue (t : Thread) (currentMethodId : Int32)
  | recognize (t : Thread) (isRecognizedAsIoOperation shouldRandomlyExcludeIo : Bool)
  | decreaseThreadsInIoOfCached (t : Thread)
  | onStart (t : Thread)
  | beforeIoMethodExit (t : Thread)
  | decreaseThreadsInIo (t : Thread)
  | addPredictionInfo (t : Thread) (currentMethodId : Int32) (realTimeValueOnExit : Int)
  | onEnd (t : Thread)
  deriving DecidableEq

variable {Thread : Type} [DecidableEq Thread]

namespace State
variable (state : State Thread)

def setThread (t : Thread) (handler : IoHandler) : State Thread :=
  { state with threads := Function.update state.threads t handler }

def increase (t : Thread) : State Thread :=
  { state with threadsInIo := state.threadsInIo + 1, inside := t :: state.inside }

def decrease (t : Thread) : State Thread :=
  { state with threadsInIo := state.threadsInIo - 1, inside := state.inside.erase t }

def getPredictionValue (parameters : Parameters) (t : Thread) (currentMethodId : Int32) : State Thread :=
  let handler := state.threads t
  let found := predictionMethodAtStart parameters.predictor state.threadsInIo handler currentMethodId
  let noted := handler.note fun call =>
    { call with
      predictionMethod := found
      others := state.inside.length - 1
      lookup := handler.lookups + 1 }
  state.setThread t { noted with
    lastIoPredictionMethod := found.or handler.lastIoPredictionMethod
    lookups := handler.lookups + 1
    position := .predicted }

def recognize (parameters : Parameters) (t : Thread) (isRecognizedAsIoOperation shouldRandomlyExcludeIo : Bool) :
    State Thread :=
  let handler := state.threads t
  if parameters.recognizer && !isRecognizedAsIoOperation then
    state.setThread t { handler with recognizingIoAsCached := true, position := .cached }
  else if parameters.excluder && shouldRandomlyExcludeIo then
    state.setThread t { handler with ignoringIo := true, position := .starting }
  else state.setThread t (handler.setPosition .starting)

def onStart (parameters : Parameters) (t : Thread) : State Thread :=
  let handler := state.threads t
  let started := state.setThread t
    ((handler.note fun call => { call with protocol := some handler.protocol }).setPosition .outside)
  if parameters.normal && decide (handler.protocol = .parallelIoRealTime) then
    { started with pendingIoCalls := state.pendingIoCalls + 1, pending := t :: state.pending }
  else started

def addPredictionInfo (parameters : Parameters) (t : Thread) (currentMethodId : Int32) (realTimeValueOnExit : Int) :
    State Thread :=
  let handler := state.threads t
  let added := state.setThread t (handler.setPosition .ending)
  match predictionMethodAtEnd parameters.predictor state.threadsInIo handler currentMethodId with
  | none => added
  | some found => { added with measurements := (found,realTimeValueOnExit) :: state.measurements }

def onEnd (parameters : Parameters) (t : Thread) : State Thread :=
  let handler := state.threads t
  let ended := state.setThread t (handler.resetIoStateFlags.pop.setPosition .outside)
  if parameters.normal && decide (handler.protocol = .parallelIoRealTime) then
    { ended with pendingIoCalls := state.pendingIoCalls - 1, pending := state.pending.erase t }
  else ended

end State

/-- One step; `none` where the thread is not at it. -/
def step (parameters : Parameters) (state : State Thread) : Event Thread → Option (State Thread)
  | .enteringMethod t methodId =>
    if (state.threads t).position = .outside then some (state.setThread t ((state.threads t).enteringMethod methodId))
    else none
  | .exitingMethod t methodId =>
    if (state.threads t).position = .outside then some (state.setThread t ((state.threads t).exitingMethod methodId))
    else none
  | .afterIoMethodEntry t invocationPointHashValue =>
    if (state.threads t).position = .outside then
      some (state.setThread t ((state.threads t).afterIoMethodEntry invocationPointHashValue))
    else none
  | .increaseThreadsInIo t =>
    if (state.threads t).position = .entered then
      some ((state.increase t).setThread t ((state.threads t).setPosition .counted))
    else none
  | .getPredictionValue t currentMethodId =>
    if (state.threads t).position = .counted then some (state.getPredictionValue parameters t currentMethodId) else none
  | .recognize t isRecognizedAsIoOperation shouldRandomlyExcludeIo =>
    if (state.threads t).position = .predicted then
      some (state.recognize parameters t isRecognizedAsIoOperation shouldRandomlyExcludeIo)
    else none
  | .decreaseThreadsInIoOfCached t =>
    if (state.threads t).position = .cached then
      some ((state.decrease t).setThread t ((state.threads t).setPosition .starting))
    else none
  | .onStart t => if (state.threads t).position = .starting then some (state.onStart parameters t) else none
  | .beforeIoMethodExit t =>
    if (state.threads t).position = .outside then some (state.setThread t (state.threads t).beforeIoMethodExit) else none
  | .decreaseThreadsInIo t =>
    if (state.threads t).position = .exiting then
      let uncounted := if (state.threads t).recognizingIoAsCached then state else state.decrease t
      some (uncounted.setThread t ((state.threads t).setPosition .uncounted))
    else none
  | .addPredictionInfo t currentMethodId realTimeValueOnExit =>
    if (state.threads t).position = .uncounted then
      some (state.addPredictionInfo parameters t currentMethodId realTimeValueOnExit)
    else none
  | .onEnd t => if (state.threads t).position = .ending then some (state.onEnd parameters t) else none

/-! ## Pairing -/

/-- The thread's I/O that have begun, the innermost first. -/
def IoHandler.begun (handler : IoHandler) : List Call := handler.calls.filter Call.valid

/-- Every I/O method that was entered has been left. -/
def State.AllLeft (state : State Thread) : Prop :=
  ∀ t, (state.threads t).calls = [] ∧ (state.threads t).position = .outside

/-- An exit ends an I/O exactly if its entry started one, and with the same protocol; the counters are back when all
    are left. -/
structure PairsUp (threadsInIo : UInt32) (state : State Thread) (event : Event Thread) : Prop where
  ends : ∀ t, event = .beforeIoMethodExit t →
    ((state.threads t).beforeIoMethodExit.position = .exiting ↔ (state.threads t).calls.head?.any Call.valid = true)
  same : ∀ t, event = .onEnd t →
    (state.threads t).calls.head?.bind Call.protocol = some (state.threads t).protocol
  settled : state.AllLeft → state.threadsInIo = threadsInIo ∧ state.pendingIoCalls = 0

/-- A thread that leaves an I/O method finds in its stack depth and its remembered hash what it found at the matching
    entry, and none of its I/O begins inside one that is cached or ignored. -/
structure Paired (state : State Thread) (event : Event Thread) : Prop where
  leaves : ∀ t, event = .beforeIoMethodExit t →
    invalidIoInvocationPoint (state.threads t).stackDepth (state.threads t).ioInvocationPointHashValue =
      (state.threads t).calls.head?.all fun call =>
        invalidIoInvocationPoint call.stackDepth call.invocationPointHashValue
  enters : ∀ t invocationPointHashValue, event = .afterIoMethodEntry t invocationPointHashValue →
    invalidIoInvocationPoint (state.threads t).stackDepth invocationPointHashValue = false →
    ∀ call ∈ (state.threads t).begun, call.protocol = some .parallelIoRealTime

instance (state : State Thread) : (event : Event Thread) → Decidable (Paired state event)
  | .beforeIoMethodExit t => decidable_of_iff
      (invalidIoInvocationPoint (state.threads t).stackDepth (state.threads t).ioInvocationPointHashValue =
        (state.threads t).calls.head?.all fun call =>
          invalidIoInvocationPoint call.stackDepth call.invocationPointHashValue)
      ⟨fun own => ⟨fun _ same => by cases same; exact own,nofun⟩,fun paired => paired.leaves t rfl⟩
  | .afterIoMethodEntry t invocationPointHashValue =>
    have : Decidable (∀ call ∈ (state.threads t).begun, call.protocol = some .parallelIoRealTime) :=
      List.decidableBAll _ _
    decidable_of_iff (invalidIoInvocationPoint (state.threads t).stackDepth invocationPointHashValue = false →
        ∀ call ∈ (state.threads t).begun, call.protocol = some .parallelIoRealTime)
      ⟨fun own => ⟨nofun,fun _ _ same => by cases same; exact own⟩,fun paired => paired.enters t _ rfl⟩
  | .enteringMethod _ _ | .exitingMethod _ _ | .increaseThreadsInIo _ | .getPredictionValue _ _ | .recognize _ _ _
  | .decreaseThreadsInIoOfCached _ | .onStart _ | .decreaseThreadsInIo _ | .addPredictionInfo _ _ _ | .onEnd _ =>
    .isTrue ⟨nofun,nofun⟩

/-! ## One thread -/

/-- Whether `threadsInIo` counts the innermost I/O. -/
def IoHandler.headInside (handler : IoHandler) : Nat :=
  match handler.position with
  | .outside | .exiting => if handler.begun.isEmpty || handler.recognizingIoAsCached then 0 else 1
  | .entered | .uncounted | .ending => 0
  | .counted | .predicted | .cached => 1
  | .starting => if handler.recognizingIoAsCached then 0 else 1

def Protocol.pends : Protocol → Nat
  | .parallelIoRealTime => 1
  | .ignored | .serialSystemCallRealTime => 0

/-- Whether `pendingIoCalls` counts the innermost I/O under the normal protocol. -/
def IoHandler.headPending (handler : IoHandler) : Nat :=
  match handler.position with
  | .outside | .exiting | .uncounted | .ending =>
    if handler.begun.isEmpty then 0 else handler.protocol.pends
  | _ => 0

/-- What a thread's flags say of its I/O, and how many of them are counted. -/
structure Consistent (normal : Bool) (handler : IoHandler) (inside pending : Nat) : Prop where
  active : handler.position ≠ .outside → handler.calls.head?.any Call.valid = true
  outer : ∀ call ∈ handler.begun.tail, call.protocol = some .parallelIoRealTime
  clear : handler.position = .entered ∨ handler.position = .counted ∨ handler.position = .predicted →
    handler.ignoringIo = false ∧ handler.recognizingIoAsCached = false
  exclusive : handler.ignoringIo = true → handler.recognizingIoAsCached = false
  asCached : handler.position = .cached → handler.recognizingIoAsCached = true
  idle : handler.begun = [] → handler.ignoringIo = false ∧ handler.recognizingIoAsCached = false
  started : handler.position = .outside ∨ handler.position = .exiting ∨ handler.position = .uncounted ∨
    handler.position = .ending → ∀ call ∈ handler.begun.head?, call.protocol = some handler.protocol
  inside : inside = handler.begun.tail.length + handler.headInside
  pending : pending = if normal then handler.begun.tail.length + handler.headPending else 0

section Threads
variable {normal : Bool} {handler : IoHandler} {inside pending : Nat}

@[simp] theorem setPosition_position (position : Position) : (handler.setPosition position).position = position := rfl
@[simp] theorem setPosition_calls (position : Position) : (handler.setPosition position).calls = handler.calls := rfl
@[simp] theorem setPosition_begun (position : Position) : (handler.setPosition position).begun = handler.begun := rfl
@[simp] theorem setPosition_protocol (position : Position) :
    (handler.setPosition position).protocol = handler.protocol := rfl
@[simp] theorem setPosition_ignoringIo (position : Position) :
    (handler.setPosition position).ignoringIo = handler.ignoringIo := rfl
@[simp] theorem setPosition_recognizingIoAsCached (position : Position) :
    (handler.setPosition position).recognizingIoAsCached = handler.recognizingIoAsCached := rfl

theorem begun_of_active (active : handler.calls.head?.any Call.valid = true) :
    ∃ call outer, handler.calls = call :: outer ∧ handler.begun = call :: outer.filter Call.valid := by
  rcases calls : handler.calls with _ | ⟨call,outer⟩
  · simp [calls] at active
  · simp only [calls,List.head?_cons,Option.any_some] at active
    exact ⟨call,outer,rfl,by simp [IoHandler.begun,calls,active]⟩

theorem begun_pop (ends : handler.calls.head?.any Call.valid = true) : handler.pop.begun = handler.begun.tail := by
  obtain ⟨call,outer,calls,begun⟩ := begun_of_active ends
  rw [begun]
  simp [IoHandler.begun,IoHandler.pop,calls]

theorem begun_pop_invalid (skips : handler.calls.head?.any Call.valid = false) : handler.pop.begun = handler.begun := by
  rcases calls : handler.calls with _ | ⟨call,outer⟩
  · simp [IoHandler.begun,IoHandler.pop,calls]
  · simp only [calls,List.head?_cons,Option.any_some] at skips
    simp [IoHandler.begun,IoHandler.pop,calls,skips]

/-- Only the position, the I/O begun and the flags matter. -/
private theorem Consistent.congr {other : IoHandler} (fits : Consistent normal handler inside pending)
    (position : other.position = handler.position) (begun : other.begun = handler.begun)
    (ignoringIo : other.ignoringIo = handler.ignoringIo)
    (recognizingIoAsCached : other.recognizingIoAsCached = handler.recognizingIoAsCached)
    (active : other.position ≠ .outside → other.calls.head?.any Call.valid = true) :
    Consistent normal other inside pending := by
  have protocol : other.protocol = handler.protocol := by
    simp only [IoHandler.protocol,ignoringIo,recognizingIoAsCached]
  have headInside : other.headInside = handler.headInside := by
    simp only [IoHandler.headInside,position,begun,recognizingIoAsCached]
  have headPending : other.headPending = handler.headPending := by
    simp only [IoHandler.headPending,position,begun,protocol]
  constructor
  case active => exact active
  case outer => exact begun ▸ fits.outer
  case clear => simpa only [position,ignoringIo,recognizingIoAsCached] using fits.clear
  case exclusive => simpa only [ignoringIo,recognizingIoAsCached] using fits.exclusive
  case asCached => simpa only [position,recognizingIoAsCached] using fits.asCached
  case idle => simpa only [begun,ignoringIo,recognizingIoAsCached] using fits.idle
  case started => simpa only [position,begun,protocol] using fits.started
  case inside => rw [begun,headInside,fits.inside]
  case pending => rw [begun,headPending,fits.pending]

/-- A thread whose I/O are all parallel has clear flags. -/
private theorem flags_clear (fits : Consistent normal handler inside pending) (outside : handler.position = .outside)
    (parallel : ∀ call ∈ handler.begun, call.protocol = some .parallelIoRealTime) :
    handler.ignoringIo = false ∧ handler.recognizingIoAsCached = false := by
  rcases begun : handler.begun with _ | ⟨call,outer⟩
  · exact fits.idle begun
  · have same := fits.started (.inl outside) call (by simp [begun])
    rw [parallel call (by simp [begun]),Option.some.injEq] at same
    unfold IoHandler.protocol at same
    split_ifs at same with ignores caches
    exact ⟨Bool.eq_false_iff.mpr ignores,Bool.eq_false_iff.mpr caches⟩

private theorem enter_consistent {invocationPointHashValue : Int32} (fits : Consistent normal handler inside pending)
    (outside : handler.position = .outside)
    (parallel : invalidIoInvocationPoint handler.stackDepth invocationPointHashValue = false →
      ∀ call ∈ handler.begun, call.protocol = some .parallelIoRealTime) :
    Consistent normal (handler.afterIoMethodEntry invocationPointHashValue) inside pending := by
  cases valid : invalidIoInvocationPoint handler.stackDepth invocationPointHashValue with
  | true =>
    have begun : (handler.afterIoMethodEntry invocationPointHashValue).begun = handler.begun := by
      simp [IoHandler.begun,IoHandler.afterIoMethodEntry,Call.valid,valid]
    simp only [IoHandler.afterIoMethodEntry,valid,if_true] at begun ⊢
    exact fits.congr rfl begun rfl rfl (fun away => absurd outside away)
  | false =>
    have parallel := parallel valid
    obtain ⟨notIgnored,notCached⟩ := flags_clear fits outside parallel
    have begun : (handler.afterIoMethodEntry invocationPointHashValue).begun =
        { stackDepth := handler.stackDepth, invocationPointHashValue } :: handler.begun := by
      simp [IoHandler.begun,IoHandler.afterIoMethodEntry,Call.valid,valid]
    have counts : handler.begun.tail.length + (if handler.begun.isEmpty then 0 else 1) = handler.begun.length := by
      cases handler.begun <;> rfl
    have counted := fits.inside
    have pended := fits.pending
    simp only [IoHandler.headInside,IoHandler.headPending,IoHandler.protocol,Protocol.pends,outside,notIgnored,notCached,
      Bool.or_false,Bool.false_eq_true,if_false,counts] at counted pended
    simp only [IoHandler.afterIoMethodEntry,valid,Bool.false_eq_true,if_false] at begun ⊢
    constructor <;> simp_all [IoHandler.headInside,IoHandler.headPending,Call.valid]

private theorem leave_consistent (fits : Consistent normal handler inside pending) (outside : handler.position = .outside)
    (leaves : invalidIoInvocationPoint handler.stackDepth handler.ioInvocationPointHashValue =
      handler.calls.head?.all fun call => invalidIoInvocationPoint call.stackDepth call.invocationPointHashValue) :
    Consistent normal handler.beforeIoMethodExit inside pending := by
  have matching : handler.calls.head?.any Call.valid =
      !invalidIoInvocationPoint handler.stackDepth handler.ioInvocationPointHashValue := by
    rw [leaves]
    cases handler.calls <;> simp [Call.valid]
  cases valid : invalidIoInvocationPoint handler.stackDepth handler.ioInvocationPointHashValue with
  | true =>
    rw [valid,Bool.not_true] at matching
    simp only [IoHandler.beforeIoMethodExit,valid,if_true]
    exact fits.congr rfl (begun_pop_invalid matching) rfl rfl (fun away => absurd outside away)
  | false =>
    rw [valid,Bool.not_false] at matching
    have counted := fits.inside
    have pended := fits.pending
    simp only [IoHandler.headInside,IoHandler.headPending,outside] at counted pended
    simp only [IoHandler.beforeIoMethodExit,valid,Bool.false_eq_true,if_false]
    constructor
    case active => exact fun _ => matching
    case outer => exact fits.outer
    case clear => exact nofun
    case exclusive => exact fits.exclusive
    case asCached => exact nofun
    case idle => exact fits.idle
    case started => exact fun _ => fits.started (.inl outside)
    case inside => exact counted
    case pending => exact pended

/-- Within an I/O, a step that keeps the calls has to answer for the flags and for the innermost I/O only. -/
private theorem Consistent.advance {other : IoHandler} {insideNext : Nat} (fits : Consistent normal handler inside pending)
    (within : handler.position ≠ .outside) (calls : other.calls = handler.calls)
    (clear : other.position = .entered ∨ other.position = .counted ∨ other.position = .predicted →
      other.ignoringIo = false ∧ other.recognizingIoAsCached = false)
    (exclusive : other.ignoringIo = true → other.recognizingIoAsCached = false)
    (asCached : other.position = .cached → other.recognizingIoAsCached = true)
    (started : other.position = .outside ∨ other.position = .exiting ∨ other.position = .uncounted ∨
      other.position = .ending → other.protocol = handler.protocol ∧
        (handler.position = .exiting ∨ handler.position = .uncounted))
    (counted : insideNext + handler.headInside = inside + other.headInside)
    (pended : other.headPending = handler.headPending) : Consistent normal other insideNext pending := by
  have begun : other.begun = handler.begun := by simp only [IoHandler.begun,calls]
  obtain ⟨call,rest,-,first⟩ := begun_of_active (fits.active within)
  constructor
  case active => exact fun _ => calls ▸ fits.active within
  case outer => exact begun ▸ fits.outer
  case clear => exact clear
  case exclusive => exact exclusive
  case asCached => exact asCached
  case idle => exact fun none => by simp [begun,first] at none
  case started =>
    intro after
    obtain ⟨protocol,before⟩ := started after
    rw [begun,protocol]
    exact fits.started (.inr (before.imp_right .inl))
  case inside =>
    have := fits.inside
    rw [begun]
    omega
  case pending => rw [begun,pended,fits.pending]

private theorem increase_consistent (fits : Consistent normal handler inside pending) (here : handler.position = .entered) :
    Consistent normal (handler.setPosition .counted) (inside + 1) pending := by
  have clear := fits.clear (.inl here)
  refine fits.advance (by simp [here]) rfl (fun _ => clear) fits.exclusive nofun nofun ?_ ?_
  · simp [IoHandler.headInside,here]
  · simp [IoHandler.headPending,here]

private theorem uncountCached_consistent (fits : Consistent normal handler inside pending) (here : handler.position = .cached) :
    Consistent normal (handler.setPosition .starting) (inside - 1) pending := by
  have caches := fits.asCached here
  have counted := fits.inside
  simp only [IoHandler.headInside,here] at counted
  refine fits.advance (by simp [here]) rfl nofun fits.exclusive nofun nofun ?_ ?_
  · simp only [IoHandler.headInside,here,setPosition_position,setPosition_recognizingIoAsCached,caches,if_true]
    omega
  · simp [IoHandler.headPending,here]

private theorem uncount_consistent (fits : Consistent normal handler inside pending) (here : handler.position = .exiting) :
    Consistent normal (handler.setPosition .uncounted) (if handler.recognizingIoAsCached then inside else inside - 1)
      pending := by
  obtain ⟨call,rest,-,first⟩ := begun_of_active (fits.active (by simp [here]))
  have counted := fits.inside
  simp only [IoHandler.headInside,here,first,List.isEmpty_cons,Bool.false_or] at counted
  refine fits.advance (by simp [here]) rfl nofun fits.exclusive nofun (fun _ => ⟨rfl,.inl here⟩) ?_ ?_
  · simp only [IoHandler.headInside,here,setPosition_position,first,List.isEmpty_cons,Bool.false_or]
    split_ifs at counted ⊢ <;> omega
  · simp [IoHandler.headPending,here]

private theorem measure_consistent (fits : Consistent normal handler inside pending) (here : handler.position = .uncounted) :
    Consistent normal (handler.setPosition .ending) inside pending := by
  refine fits.advance (by simp [here]) rfl nofun fits.exclusive nofun (fun _ => ⟨rfl,.inr here⟩) ?_ ?_
  · simp [IoHandler.headInside,here]
  · simp [IoHandler.headPending,here]

private theorem predict_consistent {f : Call → Call} {found : Option PredictionMethod} {lookups : Nat}
    (same : ∀ call, (f call).valid = call.valid) (fits : Consistent normal handler inside pending)
    (here : handler.position = .counted) :
    Consistent normal { handler.note f with lastIoPredictionMethod := found, lookups, position := .predicted }
      inside pending := by
  obtain ⟨call,rest,calls,begun⟩ := begun_of_active (fits.active (by simp [here]))
  have valid : call.valid = true := by simpa [calls] using fits.active (by simp [here])
  have noted : IoHandler.begun { handler.note f with lastIoPredictionMethod := found, lookups, position := .predicted } =
      f call :: rest.filter Call.valid := by
    simp [IoHandler.begun,IoHandler.note,calls,same,valid]
  obtain ⟨active,outer,clear,exclusive,asCached,idle,started,inside,pending⟩ := fits
  simp only [IoHandler.note,calls] at noted ⊢
  constructor <;> simp_all [IoHandler.headInside,IoHandler.headPending]

private theorem recognize_consistent (fits : Consistent normal handler inside pending) (here : handler.position = .predicted) :
    Consistent normal { handler with recognizingIoAsCached := true, position := .cached } inside pending ∧
    Consistent normal { handler with ignoringIo := true, position := .starting } inside pending ∧
    Consistent normal (handler.setPosition .starting) inside pending := by
  have away : handler.position ≠ .outside := by simp [here]
  obtain ⟨heeded,uncached⟩ := fits.clear (.inr (.inr here))
  refine ⟨?caches,?ignores,?models⟩
  case caches =>
    refine fits.advance away rfl nofun (fun ignores => ?_) (fun _ => rfl) nofun ?_ ?_
    · simp [heeded] at ignores
    · simp [IoHandler.headInside,here]
    · simp [IoHandler.headPending,here]
  case ignores =>
    refine fits.advance away rfl nofun (fun _ => uncached) nofun nofun ?_ ?_
    · simp [IoHandler.headInside,here,uncached]
    · simp [IoHandler.headPending,here]
  case models =>
    refine fits.advance away rfl nofun fits.exclusive nofun nofun ?_ ?_
    · simp [IoHandler.headInside,here,uncached]
    · simp [IoHandler.headPending,here]

private theorem start_consistent (fits : Consistent normal handler inside pending) (here : handler.position = .starting) :
    Consistent normal ((handler.note fun call => { call with protocol := some handler.protocol }).setPosition .outside)
      inside (if normal then pending + handler.protocol.pends else pending) := by
  obtain ⟨call,rest,calls,begun⟩ := begun_of_active (fits.active (by simp [here]))
  have valid : call.valid = true := by simpa [calls] using fits.active (by simp [here])
  have noted : (handler.note fun call => { call with protocol := some handler.protocol }).begun =
      { call with protocol := some handler.protocol } :: rest.filter Call.valid := by
    simp only [Call.valid,Bool.not_eq_true'] at valid
    simp [IoHandler.begun,IoHandler.note,calls,Call.valid,valid]
  have protocol : (handler.note fun call => { call with protocol := some handler.protocol }).protocol = handler.protocol := by
    simp [IoHandler.note,calls,IoHandler.protocol]
  have flags : (handler.note fun call => { call with protocol := some handler.protocol }).recognizingIoAsCached =
      handler.recognizingIoAsCached := by simp [IoHandler.note,calls]
  have ignores : (handler.note fun call => { call with protocol := some handler.protocol }).ignoringIo =
      handler.ignoringIo := by simp [IoHandler.note,calls]
  have counted := fits.inside
  have pended := fits.pending
  simp only [IoHandler.headInside,IoHandler.headPending,here,begun,List.tail_cons] at counted pended
  constructor
  case active => exact fun away => absurd rfl away
  case outer => simpa only [setPosition_begun,noted,begun,List.tail_cons] using fits.outer
  case clear => simp
  case exclusive => simpa only [setPosition_ignoringIo,setPosition_recognizingIoAsCached,ignores,flags] using fits.exclusive
  case asCached => simp
  case idle => simp [noted]
  case started => simp [noted,protocol]
  case inside => simp [IoHandler.headInside,noted,flags,counted]
  case pending =>
    simp only [IoHandler.headPending,setPosition_position,setPosition_begun,setPosition_protocol,noted,protocol]
    cases normal <;> simp_all

private theorem end_consistent (fits : Consistent normal handler inside pending) (here : handler.position = .ending) :
    Consistent normal (handler.resetIoStateFlags.pop.setPosition .outside) inside
      (if normal then pending - handler.protocol.pends else pending) := by
  have active := fits.active (by simp [here])
  have popped : handler.resetIoStateFlags.pop.begun = handler.begun.tail :=
    show handler.pop.begun = _ from begun_pop active
  have counts : handler.begun.tail.tail.length + (if handler.begun.tail.isEmpty then 0 else 1) =
      handler.begun.tail.length := by cases handler.begun.tail <;> rfl
  have clear : handler.resetIoStateFlags.pop.ignoringIo = false ∧
    handler.resetIoStateFlags.pop.recognizingIoAsCached = false := ⟨rfl,rfl⟩
  have protocol : handler.resetIoStateFlags.pop.protocol = .parallelIoRealTime := rfl
  obtain ⟨call,rest,calls,begun⟩ := begun_of_active active
  obtain ⟨-,outer,-,exclusive,asCached,idle,started,inside,pending⟩ := fits
  constructor
  case active => exact fun away => absurd rfl away
  case outer =>
    rw [setPosition_begun,popped]
    exact fun call member => outer call (List.mem_of_mem_tail member)
  case clear => simp
  case exclusive => simp [clear]
  case asCached => simp
  case idle => simp [clear]
  case started =>
    intro _ call first
    rw [setPosition_begun,popped] at first
    rw [setPosition_protocol,protocol]
    exact outer call (List.mem_of_mem_head? first)
  case inside =>
    simp only [IoHandler.headInside,here,setPosition_position,setPosition_begun,popped,setPosition_recognizingIoAsCached,clear,
      Bool.or_false,counts] at inside ⊢
    exact inside
  case pending =>
    simp only [IoHandler.headPending,here,begun,List.isEmpty_cons,Bool.false_eq_true,if_false] at pending
    have one : Protocol.pends .parallelIoRealTime = 1 := rfl
    simp only [IoHandler.headPending,setPosition_position,setPosition_begun,popped,setPosition_protocol,protocol,one,counts]
    cases normal with
    | false => exact pending
    | true =>
      rw [if_pos rfl] at pending ⊢
      rw [pending,begun,Nat.add_sub_cancel]
      simp

end Threads

/-! ## All threads -/

/-- The counters against the I/O that they count, which each thread's flags tell. -/
structure Inv (parameters : Parameters) (threadsInIo : UInt32) (state : State Thread) : Prop where
  consistent : ∀ t, Consistent parameters.normal (state.threads t) (state.inside.count t) (state.pending.count t)
  counted : state.threadsInIo = threadsInIo + UInt32.ofNat state.inside.length
  pended : state.pendingIoCalls = state.pending.length

variable {parameters : Parameters} {threadsInIo : UInt32} {state next last : State Thread} {event : Event Thread}
  {lastIoPredictionMethod : Thread → Option PredictionMethod}

theorem inv_initial : Inv parameters threadsInIo (initial threadsInIo lastIoPredictionMethod) := by
  refine ⟨fun t => ?_,by simp [initial],rfl⟩
  constructor <;>
    simp [initial,IoHandler.begun,IoHandler.headInside,IoHandler.headPending]

/-- Only the thread at `t` and its counts change. -/
private theorem inv_of_others (t : Thread) (inv : Inv parameters threadsInIo state)
    (others : ∀ u, u ≠ t → next.threads u = state.threads u ∧ next.inside.count u = state.inside.count u ∧
      next.pending.count u = state.pending.count u)
    (consistent : Consistent parameters.normal (next.threads t) (next.inside.count t) (next.pending.count t))
    (counted : next.threadsInIo = threadsInIo + UInt32.ofNat next.inside.length)
    (pended : next.pendingIoCalls = next.pending.length) : Inv parameters threadsInIo next := by
  refine ⟨fun u => ?_,counted,pended⟩
  by_cases own : u = t
  · exact own ▸ consistent
  · obtain ⟨threads,inside,pending⟩ := others u own
    rw [threads,inside,pending]
    exact inv.consistent u

private theorem inv_setThread {t : Thread} {handler : IoHandler} (inv : Inv parameters threadsInIo state)
    (consistent : Consistent parameters.normal handler (state.inside.count t) (state.pending.count t)) :
    Inv parameters threadsInIo (state.setThread t handler) := by
  refine inv_of_others t inv (fun u other => ⟨?_,rfl,rfl⟩) ?_ inv.counted inv.pended
  · exact Function.update_of_ne other _ _
  · simpa [State.setThread] using consistent

private theorem inv_increase {t : Thread} {handler : IoHandler} (inv : Inv parameters threadsInIo state)
    (consistent : Consistent parameters.normal handler (state.inside.count t + 1) (state.pending.count t)) :
    Inv parameters threadsInIo ((state.increase t).setThread t handler) := by
  refine inv_of_others t inv (fun u other => ⟨Function.update_of_ne other _ _,?_,rfl⟩) ?_ ?_ inv.pended
  · exact List.count_cons_of_ne (Ne.symm other)
  · simpa [State.setThread,State.increase] using consistent
  · simp [State.setThread,State.increase,inv.counted,UInt32.add_assoc]

private theorem inv_decrease {t : Thread} {handler : IoHandler} (inv : Inv parameters threadsInIo state)
    (counts : 0 < state.inside.count t)
    (consistent : Consistent parameters.normal handler (state.inside.count t - 1) (state.pending.count t)) :
    Inv parameters threadsInIo ((state.decrease t).setThread t handler) := by
  have member : t ∈ state.inside := List.count_pos_iff.mp counts
  have length := List.length_erase_add_one member
  refine inv_of_others t inv (fun u other => ⟨Function.update_of_ne other _ _,?_,rfl⟩) ?_ ?_ inv.pended
  · exact List.count_erase_of_ne other
  · simpa [State.setThread,State.decrease] using consistent
  · simp only [State.setThread,State.decrease,inv.counted,← length,UInt32.ofNat_add]
    rw [← UInt32.add_assoc]
    exact UInt32.add_sub_cancel _ 1

/-- Only the parallel protocol in its normal form counts pending calls. -/
private theorem unpended {handler : IoHandler}
    (pends : ¬(parameters.normal && decide (handler.protocol = .parallelIoRealTime)) = true) (pending : Nat) :
    (if parameters.normal then pending + handler.protocol.pends else pending) = pending ∧
      (if parameters.normal then pending - handler.protocol.pends else pending) = pending := by
  cases normal : parameters.normal with
  | false => simp
  | true =>
    have zero : handler.protocol.pends = 0 := by
      cases protocol : handler.protocol <;> simp [normal,protocol] at pends ⊢ <;> rfl
    simp [zero]

private theorem inv_onStart {t : Thread} (inv : Inv parameters threadsInIo state)
    (here : (state.threads t).position = .starting) : Inv parameters threadsInIo (state.onStart parameters t) := by
  have consistent := start_consistent (inv.consistent t) here
  unfold State.onStart
  dsimp only
  split_ifs with pends
  · simp only [Bool.and_eq_true,decide_eq_true_eq] at pends
    rw [pends.1,if_pos rfl,pends.2] at consistent
    refine inv_of_others t inv (fun u other => ⟨Function.update_of_ne other _ _,rfl,List.count_cons_of_ne (Ne.symm other)⟩)
      ?_ inv.counted ?_
    · simpa [State.setThread,pends,Protocol.pends] using consistent
    · simp [inv.pended]
  · rw [(unpended pends _).1] at consistent
    exact inv_setThread inv consistent

private theorem inv_onEnd {t : Thread} (inv : Inv parameters threadsInIo state)
    (here : (state.threads t).position = .ending) : Inv parameters threadsInIo (state.onEnd parameters t) := by
  have consistent := end_consistent (inv.consistent t) here
  unfold State.onEnd
  dsimp only
  split_ifs with pends
  · simp only [Bool.and_eq_true,decide_eq_true_eq] at pends
    have pending := (inv.consistent t).pending
    obtain ⟨call,rest,-,begun⟩ := begun_of_active ((inv.consistent t).active (by simp [here]))
    simp only [pends.1,if_true,IoHandler.headPending,here,begun,List.isEmpty_cons,Bool.false_eq_true,if_false,pends.2,
      Protocol.pends] at pending
    have member : t ∈ state.pending := List.count_pos_iff.mp (by omega)
    have length := List.length_erase_add_one member
    rw [pends.1,if_pos rfl,pends.2] at consistent
    refine inv_of_others t inv (fun u other => ⟨Function.update_of_ne other _ _,rfl,List.count_erase_of_ne other⟩)
      ?_ inv.counted ?_
    · simpa [State.setThread,pends,Protocol.pends] using consistent
    · simp only [inv.pended,← length]
      push_cast
      ring
  · rw [(unpended pends _).2] at consistent
    exact inv_setThread inv consistent

theorem step_inv (inv : Inv parameters threadsInIo state) (paired : Paired state event)
    (stepped : step parameters state event = some next) : Inv parameters threadsInIo next := by
  cases event with
  | enteringMethod t methodId =>
    simp only [step,Option.ite_none_right_eq_some,Option.some.injEq] at stepped
    obtain ⟨outside,rfl⟩ := stepped
    exact inv_setThread inv ((inv.consistent t).congr rfl rfl rfl rfl (fun away => absurd outside away))
  | exitingMethod t methodId =>
    simp only [step,Option.ite_none_right_eq_some,Option.some.injEq] at stepped
    obtain ⟨outside,rfl⟩ := stepped
    exact inv_setThread inv ((inv.consistent t).congr rfl rfl rfl rfl (fun away => absurd outside away))
  | afterIoMethodEntry t invocationPointHashValue =>
    simp only [step,Option.ite_none_right_eq_some,Option.some.injEq] at stepped
    obtain ⟨outside,rfl⟩ := stepped
    exact inv_setThread inv (enter_consistent (inv.consistent t) outside (paired.enters t _ rfl))
  | increaseThreadsInIo t =>
    simp only [step,Option.ite_none_right_eq_some,Option.some.injEq] at stepped
    obtain ⟨here,rfl⟩ := stepped
    exact inv_increase inv (increase_consistent (inv.consistent t) here)
  | getPredictionValue t currentMethodId =>
    simp only [step,Option.ite_none_right_eq_some,Option.some.injEq] at stepped
    obtain ⟨here,rfl⟩ := stepped
    exact inv_setThread inv (predict_consistent (fun _ => rfl) (inv.consistent t) here)
  | recognize t isRecognizedAsIoOperation shouldRandomlyExcludeIo =>
    simp only [step,Option.ite_none_right_eq_some,Option.some.injEq] at stepped
    obtain ⟨here,rfl⟩ := stepped
    obtain ⟨caches,ignores,simulates⟩ := recognize_consistent (inv.consistent t) here
    unfold State.recognize
    split_ifs
    · exact inv_setThread inv caches
    · exact inv_setThread inv ignores
    · exact inv_setThread inv simulates
  | decreaseThreadsInIoOfCached t =>
    simp only [step,Option.ite_none_right_eq_some,Option.some.injEq] at stepped
    obtain ⟨here,rfl⟩ := stepped
    have inside := (inv.consistent t).inside
    simp only [IoHandler.headInside,here] at inside
    exact inv_decrease inv (by omega) (uncountCached_consistent (inv.consistent t) here)
  | onStart t =>
    simp only [step,Option.ite_none_right_eq_some,Option.some.injEq] at stepped
    obtain ⟨here,rfl⟩ := stepped
    exact inv_onStart inv here
  | beforeIoMethodExit t =>
    simp only [step,Option.ite_none_right_eq_some,Option.some.injEq] at stepped
    obtain ⟨outside,rfl⟩ := stepped
    exact inv_setThread inv (leave_consistent (inv.consistent t) outside (paired.leaves t rfl))
  | decreaseThreadsInIo t =>
    simp only [step,Option.ite_none_right_eq_some,Option.some.injEq] at stepped
    obtain ⟨here,rfl⟩ := stepped
    have consistent := uncount_consistent (inv.consistent t) here
    cases caches : (state.threads t).recognizingIoAsCached with
    | true =>
      rw [caches,if_pos rfl] at consistent
      exact inv_setThread inv consistent
    | false =>
      have inside := (inv.consistent t).inside
      obtain ⟨call,rest,-,begun⟩ := begun_of_active ((inv.consistent t).active (by simp [here]))
      simp only [IoHandler.headInside,here,begun,List.isEmpty_cons,caches,Bool.or_self,Bool.false_eq_true,if_false] at inside
      rw [caches,if_neg (by simp)] at consistent
      exact inv_decrease inv (by omega) consistent
  | addPredictionInfo t currentMethodId realTimeValueOnExit =>
    simp only [step,Option.ite_none_right_eq_some,Option.some.injEq] at stepped
    obtain ⟨here,rfl⟩ := stepped
    obtain ⟨consistent,counted,pended⟩ := inv_setThread inv (measure_consistent (inv.consistent t) here)
    unfold State.addPredictionInfo
    dsimp only
    split
    · exact ⟨consistent,counted,pended⟩
    · exact ⟨consistent,counted,pended⟩
  | onEnd t =>
    simp only [step,Option.ite_none_right_eq_some,Option.some.injEq] at stepped
    obtain ⟨here,rfl⟩ := stepped
    exact inv_onEnd inv here

/-! ## Runs -/

private theorem inv_settled (inv : Inv parameters threadsInIo state) (left : state.AllLeft) :
    state.threadsInIo = threadsInIo ∧ state.pendingIoCalls = 0 := by
  have begun (t : Thread) : (state.threads t).begun = [] := by simp [IoHandler.begun,(left t).1]
  have inside : state.inside = [] := List.eq_nil_iff_forall_not_mem.mpr fun t member => by
    have counts := (inv.consistent t).inside
    simp only [IoHandler.headInside,(left t).2,begun t,List.isEmpty_nil,Bool.true_or,if_true,List.tail_nil,
      List.length_nil] at counts
    exact absurd (List.count_pos_iff.mpr member) (by omega)
  have pending : state.pending = [] := List.eq_nil_iff_forall_not_mem.mpr fun t member => by
    have counts := (inv.consistent t).pending
    simp only [IoHandler.headPending,(left t).2,begun t,List.isEmpty_nil,if_true,List.tail_nil,List.length_nil,
      Nat.add_zero,ite_self] at counts
    exact absurd (List.count_pos_iff.mpr member) (by omega)
  exact ⟨by simp [inv.counted,inside],by simp [inv.pended,pending]⟩

private theorem inv_pairsUp (inv : Inv parameters threadsInIo state) (paired : Paired state event)
    (accepted : (step parameters state event).isSome = true) : PairsUp threadsInIo state event := by
  obtain ⟨next,stepped⟩ := Option.isSome_iff_exists.mp accepted
  constructor
  case ends =>
    rintro t rfl
    simp only [step,Option.ite_none_right_eq_some] at stepped
    have leaves := paired.leaves t rfl
    unfold IoHandler.beforeIoMethodExit
    rw [leaves]
    cases (state.threads t).calls.head? with
    | none => simp [IoHandler.pop,stepped.1]
    | some call =>
      cases valid : invalidIoInvocationPoint call.stackDepth call.invocationPointHashValue <;>
        simp [IoHandler.pop,stepped.1,Call.valid,valid]
  case same =>
    rintro t rfl
    simp only [step,Option.ite_none_right_eq_some] at stepped
    have consistent := inv.consistent t
    obtain ⟨call,outer,calls,begun⟩ := begun_of_active (consistent.active (by simp [stepped.1]))
    simpa [calls] using consistent.started (by simp [stepped.1]) call (by simp [begun])
  case settled => exact inv_settled inv

section Examples
variable (t : Fin 2) (invocationPointHashValue methodId : Int32)

/-- The steps of an entry that starts an I/O. -/
def startIo (isRecognizedAsIoOperation shouldRandomlyExcludeIo : Bool) : List (Event (Fin 2)) :=
  [.afterIoMethodEntry t invocationPointHashValue,.increaseThreadsInIo t,.getPredictionValue t methodId,
    .recognize t isRecognizedAsIoOperation shouldRandomlyExcludeIo] ++
  (if isRecognizedAsIoOperation then [] else [.decreaseThreadsInIoOfCached t]) ++ [.onStart t]

/-- The steps of an exit that ends one. -/
def endIo (realTimeValueOnExit : Int) : List (Event (Fin 2)) :=
  [.beforeIoMethodExit t,.decreaseThreadsInIo t,.addPredictionInfo t methodId realTimeValueOnExit,.onEnd t]

end Examples

private def allSet : Parameters := ⟨.globalIoPrediction,true,true,true⟩

/-- A cached I/O, and an ignored one inside a simulated one, overlap; then an entry and an exit at stack depth zero are
    skipped. -/
private def overlap : List (Event (Fin 2)) :=
  [.enteringMethod 0 4,.enteringMethod 1 5] ++ startIo 0 7 2 true false ++ startIo 1 8 3 false false ++
    startIo 0 9 2 true true ++ endIo 1 3 20 ++ endIo 0 2 30 ++ endIo 0 2 40 ++
    [.exitingMethod 0 4,.afterIoMethodEntry 0 7,.beforeIoMethodExit 0]

/-- An exit at stack depth zero after an entry that was skipped: the remembered hash is that of an earlier I/O. -/
private def endsUnstarted : List (Event (Fin 2)) :=
  startIo 0 1 2 true false ++ endIo 0 2 30 ++ [.afterIoMethodEntry 0 5]

/-- An I/O inside a cached one. -/
private def insideCached : List (Event (Fin 2)) :=
  startIo 0 1 2 false false ++ startIo 0 1 2 true false ++ endIo 0 2 10 ++
    [.beforeIoMethodExit 0,.decreaseThreadsInIo 0,.addPredictionInfo 0 2 30]

end Vexjine.IoSimulation
