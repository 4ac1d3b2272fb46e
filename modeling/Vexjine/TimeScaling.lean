import Vexjine.MethodEvents

/-!
# The scope of a time-scaling factor

The entry of a method with a factor of its own scales the time of the thread, unless it
is scaled already, and flags the record of the call; the exit of a flagged call resets
the factor. The records are used again, with the flag of their last call.
-/

namespace Vexjine.TimeScaling
open Vexjine.MethodLogs Vexjine.MethodEvents Vexjine.Runs
set_option linter.unusedSectionVars false

variable {Factor : Type*} [DecidableEq Factor] [Zero Factor] [One Factor]

inductive ThreadManager
  /-- Also the strict parallel, the passive and the server's one. -/
  | base
  | looseParallel
  | client
  deriving DecidableEq

/-- Profiled methods, methods with a performance model, and reported I/O methods. -/
inductive Kind
  | method
  | model
  | io
  deriving DecidableEq

/-- A thread with the flags of its records by their slots, and the calls that it is in. -/
structure State (Factor : Type*) [One Factor] where
  thread : VexThreadState
  shouldResetVTFactor : Nat → Bool := fun _ => false
  timeScalingFactor : Factor := 1
  openCalls : List (Kind × Int) := []

inductive Event
  | entry (kind : Kind) (methodId : Int) (clocks : Times)
  | exit (kind : Kind) (methodId : Int) (clocks : Times)
  deriving DecidableEq

def start (stackTraces : Bool) : State Factor := { thread := initial stackTraces }

namespace State
variable (manager : ThreadManager) (methodTimeScalingFactors : Int → Factor) (state : State Factor)

/-- A client sends the factor that the thread has to its server. -/
def notifySchedulerForVirtualizedTime (scalingFactor : Factor) : State Factor :=
  match manager with
  | .base => { state with timeScalingFactor := scalingFactor }
  | .looseParallel =>
    if scalingFactor = 1 then { state with timeScalingFactor := 1 } else { state with timeScalingFactor := scalingFactor }
  | .client => state

def logMethodEntry (methodId : Int) (shouldChangeVTFactorOnExit : Bool) (clocks : Times) : State Factor :=
  { state with
    thread := state.thread.logMethodEntry methodId clocks
    shouldResetVTFactor := Function.update state.shouldResetVTFactor
      (state.thread.methodLog.getNextMethodCallInfo {}).2 shouldChangeVTFactorOnExit }

/-- Only the first of nested scaled methods changes the factor. -/
def changesFactor (methodTimeScalingFactor : Factor) : Bool :=
  state.timeScalingFactor = 1 ∧ methodTimeScalingFactor ≠ 1 ∧ methodTimeScalingFactor ≠ 0

def onVexMethodEntry (methodId : Int) (methodTimeScalingFactor : Factor) (clocks : Times) : State Factor :=
  let shouldChangeVTFactorOnExit := state.changesFactor methodTimeScalingFactor
  let notified := if shouldChangeVTFactorOnExit then
    state.notifySchedulerForVirtualizedTime manager methodTimeScalingFactor else state
  notified.logMethodEntry methodId shouldChangeVTFactorOnExit clocks

def logMethodExit (methodId : Int) (clocks : Times) : State Factor :=
  { state with thread := (state.thread.logMethodExit methodId clocks).1 }

/-- The record of the current method has its flag set. -/
def currentIsFlagged : Bool := state.thread.methodLog.currentMethodInfo.any state.shouldResetVTFactor

def onVexMethodExit (methodId : Int) (clocks : Times) : State Factor :=
  let notified := if state.currentIsFlagged then state.notifySchedulerForVirtualizedTime manager 1 else state
  notified.logMethodExit methodId clocks

def enter (kind : Kind) (methodId : Int) (clocks : Times) : State Factor :=
  let entered := match kind with
    | .method => state.onVexMethodEntry manager methodId (methodTimeScalingFactors methodId) clocks
    | .model => state.onVexMethodEntry manager methodId 0 clocks
    | .io => state.logMethodEntry methodId false clocks
  { entered with openCalls := (kind,methodId) :: state.openCalls }

def leave (kind : Kind) (methodId : Int) (clocks : Times) : State Factor :=
  let left := match kind with
    | .method => state.onVexMethodExit manager methodId clocks
    | .model | .io => state.logMethodExit methodId clocks
  { left with openCalls := state.openCalls.tail }

/-- A sequence is well nested if every exit of it is of the newest open call. -/
def step (state : State Factor) : Event → Option (State Factor)
  | .entry kind methodId clocks => some (state.enter manager methodTimeScalingFactors kind methodId clocks)
  | .exit kind methodId clocks =>
    if state.openCalls.head? = some (kind,methodId) then some (state.leave manager kind methodId clocks) else none

/-- The open calls whose exit resets the factor. -/
def flagged : List Nat := state.thread.methodLog.methodStack.filter state.shouldResetVTFactor

/-- The factor of the flagged call's method. -/
def factorInScope : Factor :=
  state.flagged.head?.elim 1 fun slot => methodTimeScalingFactors (state.thread.methodLog.infoAt slot).methodId

end State

/-- At most one open call is flagged, its factor is in force, and its exit takes the factor back. -/
structure Scoped (methodTimeScalingFactors : Int → Factor) (state : State Factor) (event : Event) (next : State Factor) :
    Prop where
  single : next.flagged.length ≤ 1
  inForce : next.timeScalingFactor = next.factorInScope methodTimeScalingFactors
  reset : ∀ kind methodId clocks, event = .exit kind methodId clocks → state.currentIsFlagged = true →
    next.timeScalingFactor = 1

/-! ## What an event does to the flags -/

section Flags
variable {manager : ThreadManager} {methodTimeScalingFactors : Int → Factor} {state : State Factor}

private theorem entered_log (thread : VexThreadState) (methodId : Int) (clocks : Times) (wf : WellFormed thread.methodLog) :
    (thread.logMethodEntry methodId clocks).methodLog.methodStack =
        thread.methodLog.nextMethodInfoToUse :: thread.methodLog.methodStack ∧
      ((thread.logMethodEntry methodId clocks).methodLog.infoAt thread.methodLog.nextMethodInfoToUse).methodId = methodId ∧
      ∀ slot ∈ thread.methodLog.methodStack,
        (thread.logMethodEntry methodId clocks).methodLog.infoAt slot = thread.methodLog.infoAt slot := by
  obtain ⟨callinfo,is,-,-,entered⟩ := thread.logMethodEntry_methodLog methodId clocks
  rw [entered]
  refine ⟨MethodLog.logMethodEntry_methodStack wf callinfo,?_,?_⟩
  · rw [MethodLog.logMethodEntry_infoAt wf callinfo le_rfl,if_pos rfl]
    exact is
  · intro slot live
    have below := wf.below slot live
    rw [MethodLog.logMethodEntry_infoAt wf callinfo below.le,if_neg below.ne]

private theorem left_log (thread : VexThreadState) {slot : Nat} {rest : List Nat} (clocks : Times)
    (wf : WellFormed thread.methodLog) (newest : thread.methodLog.methodStack = slot :: rest) :
    (thread.logMethodExit (thread.methodLog.infoAt slot).methodId clocks).1.methodLog.methodStack = rest ∧
      ∀ other, ((thread.logMethodExit (thread.methodLog.infoAt slot).methodId clocks).1.methodLog.infoAt other).methodId =
        (thread.methodLog.infoAt other).methodId := by
  rw [(thread.logMethodExit_methodLog _ clocks).1]
  have matched : (thread.methodLog.updateExitingMethodInfo (thread.methodLog.infoAt slot).methodId clocks).logMethodExit =
      (thread.methodLog.updateExitingMethodInfo (thread.methodLog.infoAt slot).methodId clocks).exitMatched slot rest := by
    simp only [MethodLog.logMethodExit,MethodLog.updateExitingMethodInfo,newest]
    exact if_neg (not_not_intro rfl)
  have stored : ∀ caller ∈ rest.head?, caller < thread.methodLog.methodInfoStorage.length := by
    intro caller first
    have open' : caller ∈ thread.methodLog.methodStack := by
      rw [newest]
      exact List.mem_cons_of_mem _ (List.mem_of_mem_head? first)
    exact lt_of_lt_of_le (wf.below caller open') wf.stored
  rw [matched]
  refine ⟨rfl,fun other => ?_⟩
  have charged := @MethodLog.updateCallingMethod_infoAt
    (thread.methodLog.updateExitingMethodInfo (thread.methodLog.infoAt slot).methodId clocks) rest stored
    ((thread.methodLog.updateExitingMethodInfo (thread.methodLog.infoAt slot).methodId
      clocks).exitingMethodInfo.getInclusiveDifferenceFrom (thread.methodLog.infoAt slot)) other
  refine (congrArg MethodCallInfo.methodId charged).trans ?_
  split <;> rfl

private theorem flags_logMethodEntry (wf : WellFormed state.thread.methodLog) (methodId : Int) (should : Bool) (clocks : Times) :
    (state.logMethodEntry methodId should clocks).shouldResetVTFactor state.thread.methodLog.nextMethodInfoToUse = should ∧
      ∀ slot ∈ state.thread.methodLog.methodStack,
        (state.logMethodEntry methodId should clocks).shouldResetVTFactor slot = state.shouldResetVTFactor slot := by
  simp only [State.logMethodEntry,MethodLog.getNextMethodCallInfo_eq wf]
  refine ⟨Function.update_self _ _ _,fun slot live => ?_⟩
  exact Function.update_of_ne (wf.below slot live).ne _ _

/-- The new call is flagged as it was asked for, whatever flag its record had. -/
private theorem flagged_logMethodEntry (wf : WellFormed state.thread.methodLog) (methodId : Int) (should : Bool)
    (clocks : Times) : (state.logMethodEntry methodId should clocks).flagged =
      (if should then [state.thread.methodLog.nextMethodInfoToUse] else []) ++ state.flagged := by
  obtain ⟨stack,-,-⟩ := entered_log state.thread methodId clocks wf
  obtain ⟨new,kept⟩ := flags_logMethodEntry wf methodId should clocks
  rw [State.flagged,show (state.logMethodEntry methodId should clocks).thread.methodLog.methodStack = _ from stack,
    List.filter_cons,new,List.filter_congr kept]
  split <;> rfl

private theorem notify_eq (ownProcess : manager ≠ .client) (scalingFactor : Factor) :
    state.notifySchedulerForVirtualizedTime manager scalingFactor = { state with timeScalingFactor := scalingFactor } := by
  cases manager with
  | base => rfl
  | looseParallel =>
    rw [State.notifySchedulerForVirtualizedTime]
    split
    · next one => rw [one]
    · rfl
  | client => exact absurd rfl ownProcess

/-- The factor is that of the only flagged slot. -/
private structure InScope (manager : ThreadManager) (factorAt : Nat → Factor) (flagged : List Nat) (factor : Factor) : Prop where
  single : flagged.length ≤ 1
  inForce : factor = flagged.head?.elim 1 factorAt
  scaled : ∀ slot ∈ flagged, factorAt slot ≠ 1
  ownProcess : manager = .client → flagged = []

private theorem InScope.congr {factorAt other : Nat → Factor} {flagged : List Nat} {factor : Factor}
    (scope : InScope manager factorAt flagged factor) (same : ∀ slot ∈ flagged, other slot = factorAt slot) :
    InScope manager other flagged factor := by
  refine ⟨scope.single,?_,fun slot member => same slot member ▸ scope.scaled slot member,scope.ownProcess⟩
  rw [scope.inForce]
  cases flagged with
  | nil => rfl
  | cons slot rest => exact (same slot List.mem_cons_self).symm

private theorem InScope.nil (factorAt : Nat → Factor) : InScope manager factorAt [] 1 :=
  ⟨Nat.zero_le 1,rfl,fun _ member => absurd member List.not_mem_nil,fun _ => rfl⟩

/-- Nothing is flagged while the factor is 1. -/
private theorem InScope.unflagged {factorAt : Nat → Factor} {flagged : List Nat} (scope : InScope manager factorAt flagged 1) :
    flagged = [] := by
  cases flagged with
  | nil => rfl
  | cons slot rest => exact absurd scope.inForce.symm (scope.scaled slot List.mem_cons_self)

/-- The factors of the methods of the records. -/
private def factorAt (methodTimeScalingFactors : Int → Factor) (log : MethodLog) (slot : Nat) : Factor :=
  methodTimeScalingFactors (log.infoAt slot).methodId

/-- The slots of the open calls, and the scope of the factor. -/
private structure Inv (manager : ThreadManager) (methodTimeScalingFactors : Int → Factor) (state : State Factor) : Prop where
  wf : WellFormed state.thread.methodLog
  calls : List.Forall₂ (fun slot call => (state.thread.methodLog.infoAt slot).methodId = call.2 ∧
    (state.shouldResetVTFactor slot = true → call.1 = Kind.method)) state.thread.methodLog.methodStack state.openCalls
  scope : InScope manager (factorAt methodTimeScalingFactors state.thread.methodLog) state.flagged state.timeScalingFactor

private theorem inv_start (stackTraces : Bool) :
    Inv manager methodTimeScalingFactors (start stackTraces : State Factor) :=
  ⟨wellFormed_init,.nil,.nil _⟩

private theorem calls_logMethodEntry (inv : Inv manager methodTimeScalingFactors state) {kind : Kind} (methodId : Int)
    (should : Bool) (flags : should = true → kind = .method) (clocks : Times) :
    List.Forall₂ (fun slot call =>
        ((state.logMethodEntry methodId should clocks).thread.methodLog.infoAt slot).methodId = call.2 ∧
          ((state.logMethodEntry methodId should clocks).shouldResetVTFactor slot = true → call.1 = Kind.method))
      (state.logMethodEntry methodId should clocks).thread.methodLog.methodStack ((kind,methodId) :: state.openCalls) := by
  obtain ⟨stack,new,kept⟩ := entered_log state.thread methodId clocks inv.wf
  obtain ⟨flag,others⟩ := flags_logMethodEntry inv.wf methodId should clocks
  rw [show (state.logMethodEntry methodId should clocks).thread.methodLog.methodStack = _ from stack]
  refine .cons ⟨new,?_⟩ ?_
  · rw [flag]
    exact flags
  · refine ((List.forall₂_and_left _ _).mpr ⟨fun slot live => And.intro (kept slot live) (others slot live),inv.calls⟩).imp ?_
    rintro slot call ⟨⟨info,same⟩,method,own⟩
    rw [show (state.logMethodEntry methodId should clocks).thread.methodLog.infoAt slot = _ from info,same]
    exact ⟨method,own⟩

/-- A call that is not flagged. -/
private theorem inv_unflagged (inv : Inv manager methodTimeScalingFactors state) (kind : Kind) (methodId : Int)
    (clocks : Times) : Inv manager methodTimeScalingFactors
      { state.logMethodEntry methodId false clocks with openCalls := (kind,methodId) :: state.openCalls } := by
  obtain ⟨-,-,kept⟩ := entered_log state.thread methodId clocks inv.wf
  refine ⟨wellFormed_handle inv.wf (.entry methodId clocks),calls_logMethodEntry inv methodId false nofun clocks,?_⟩
  have same := flagged_logMethodEntry inv.wf methodId false clocks
  rw [if_neg Bool.false_ne_true,List.nil_append] at same
  show InScope manager (factorAt methodTimeScalingFactors (state.thread.logMethodEntry methodId clocks).methodLog)
    (state.logMethodEntry methodId false clocks).flagged state.timeScalingFactor
  rw [same]
  refine inv.scope.congr fun slot member => ?_
  exact congrArg (fun info => methodTimeScalingFactors info.methodId) (kept slot (List.mem_of_mem_filter member))

/-- A call that sets the factor. -/
private theorem inv_flagged (inv : Inv manager methodTimeScalingFactors state) (ownProcess : manager ≠ .client)
    (unscaled : state.timeScalingFactor = 1) {methodId : Int} (scaled : methodTimeScalingFactors methodId ≠ 1) (clocks : Times) :
    Inv manager methodTimeScalingFactors
      { { state with timeScalingFactor := methodTimeScalingFactors methodId }.logMethodEntry methodId true clocks with
        openCalls := (.method,methodId) :: state.openCalls } := by
  obtain ⟨-,new,-⟩ := entered_log state.thread methodId clocks inv.wf
  have unflagged : state.flagged = [] := by
    have scope := inv.scope
    rw [unscaled] at scope
    exact scope.unflagged
  refine ⟨wellFormed_handle inv.wf (.entry methodId clocks),calls_logMethodEntry inv methodId true (fun _ => rfl) clocks,?_⟩
  have flagged := flagged_logMethodEntry inv.wf methodId true clocks
  rw [if_pos rfl,unflagged,List.append_nil] at flagged
  show InScope manager (factorAt methodTimeScalingFactors (state.thread.logMethodEntry methodId clocks).methodLog)
    (state.logMethodEntry methodId true clocks).flagged (methodTimeScalingFactors methodId)
  rw [flagged]
  have same : factorAt methodTimeScalingFactors (state.thread.logMethodEntry methodId clocks).methodLog
      state.thread.methodLog.nextMethodInfoToUse = methodTimeScalingFactors methodId := congrArg methodTimeScalingFactors new
  refine ⟨le_rfl,same.symm,?_,fun client => absurd client ownProcess⟩
  intro slot member
  rw [List.mem_singleton.mp member]
  exact same ▸ scaled

private theorem inv_enter (inv : Inv manager methodTimeScalingFactors state) (kind : Kind) (methodId : Int) (clocks : Times)
    (suits : manager ≠ .client ∨ kind ≠ .method ∨ methodTimeScalingFactors methodId = 1 ∨ methodTimeScalingFactors methodId = 0) :
    Inv manager methodTimeScalingFactors (state.enter manager methodTimeScalingFactors kind methodId clocks) := by
  cases kind with
  | method =>
    by_cases changes : state.changesFactor (methodTimeScalingFactors methodId) = true
    · obtain ⟨unscaled,scaled,nonzero⟩ := of_decide_eq_true changes
      have ownProcess : manager ≠ .client := by
        rcases suits with own | other | one | zero
        · exact own
        · exact absurd rfl other
        · exact absurd one scaled
        · exact absurd zero nonzero
      simp only [State.enter,State.onVexMethodEntry,changes,if_true,notify_eq ownProcess]
      exact inv_flagged inv ownProcess unscaled scaled clocks
    · rw [Bool.not_eq_true] at changes
      simp only [State.enter,State.onVexMethodEntry,changes,Bool.false_eq_true,if_false]
      exact inv_unflagged inv .method methodId clocks
  | model =>
    have changes : state.changesFactor 0 = false := by simp [State.changesFactor]
    simp only [State.enter,State.onVexMethodEntry,changes,Bool.false_eq_true,if_false]
    exact inv_unflagged inv .model methodId clocks
  | io => exact inv_unflagged inv .io methodId clocks

/-- The exit of the newest call leaves the other calls and their flags. -/
private theorem newest_left (inv : Inv manager methodTimeScalingFactors state) {kind : Kind} {methodId : Int}
    (newest : state.openCalls.head? = some (kind,methodId)) (clocks : Times) :
    ∃ slot rest, state.thread.methodLog.methodStack = slot :: rest ∧
      (state.thread.methodLog.infoAt slot).methodId = methodId ∧ (state.shouldResetVTFactor slot = true → kind = .method) ∧
      (state.thread.logMethodExit methodId clocks).1.methodLog.methodStack = rest ∧
      List.Forall₂ (fun slot call =>
        ((state.thread.logMethodExit methodId clocks).1.methodLog.infoAt slot).methodId = call.2 ∧
          (state.shouldResetVTFactor slot = true → call.1 = Kind.method)) rest state.openCalls.tail ∧
      ∀ other, ((state.thread.logMethodExit methodId clocks).1.methodLog.infoAt other).methodId =
        (state.thread.methodLog.infoAt other).methodId := by
  have calls := inv.calls
  obtain ⟨older,split⟩ := List.head?_eq_some_iff.mp newest
  rw [split] at calls
  obtain ⟨slot,rest,⟨same,method⟩,others,stack⟩ := List.forall₂_cons_right_iff.mp calls
  obtain ⟨left,kept⟩ := left_log state.thread clocks inv.wf stack
  rw [same] at left kept
  refine ⟨slot,rest,stack,same,method,left,?_,kept⟩
  rw [split,List.tail_cons]
  refine others.imp fun other call own => ?_
  rw [kept other]
  exact own

private theorem currentIsFlagged_eq {slot : Nat} {rest : List Nat} (wf : WellFormed state.thread.methodLog)
    (stack : state.thread.methodLog.methodStack = slot :: rest) :
    state.currentIsFlagged = state.shouldResetVTFactor slot := by
  rw [State.currentIsFlagged,wf.top,stack,List.head?_cons]
  rfl

private theorem inv_leave (inv : Inv manager methodTimeScalingFactors state) {kind : Kind} {methodId : Int}
    (newest : state.openCalls.head? = some (kind,methodId)) (clocks : Times) :
    Inv manager methodTimeScalingFactors (state.leave manager kind methodId clocks) ∧
      (state.currentIsFlagged = true → (state.leave manager kind methodId clocks).timeScalingFactor = 1) := by
  obtain ⟨slot,rest,stack,same,method,left,calls,kept⟩ := newest_left inv newest clocks
  have scope := inv.scope
  have current := currentIsFlagged_eq inv.wf stack
  have exited : WellFormed (state.thread.logMethodExit methodId clocks).1.methodLog :=
    wellFormed_handle inv.wf (.exit methodId clocks)
  rw [State.flagged,stack,List.filter_cons] at scope
  rw [← left] at calls
  by_cases flag : state.shouldResetVTFactor slot = true
  · rw [if_pos flag] at scope
    have ownProcess : manager ≠ .client := fun client => List.cons_ne_nil _ _ (scope.ownProcess client)
    have noneLeft : rest.filter state.shouldResetVTFactor = [] := by
      have single := scope.single
      rw [List.length_cons] at single
      exact List.length_eq_zero_iff.mp (by omega)
    have leaves : state.leave manager kind methodId clocks =
        { ({ state with timeScalingFactor := 1 } : State Factor).logMethodExit methodId clocks with
          openCalls := state.openCalls.tail } := by
      simp only [State.leave,method flag,State.onVexMethodExit,current,flag,if_true,notify_eq ownProcess]
    rw [leaves]
    refine ⟨⟨exited,calls,?_⟩,fun _ => rfl⟩
    show InScope manager _ (List.filter state.shouldResetVTFactor
      (state.thread.logMethodExit methodId clocks).1.methodLog.methodStack) 1
    rw [left,noneLeft]
    exact .nil _
  · have unflagged : state.shouldResetVTFactor slot = false := Bool.eq_false_of_not_eq_true flag
    have leaves : state.leave manager kind methodId clocks =
        { state.logMethodExit methodId clocks with openCalls := state.openCalls.tail } := by
      cases kind with
      | method => simp only [State.leave,State.onVexMethodExit,current,unflagged,Bool.false_eq_true,if_false]
      | model | io => rfl
    rw [if_neg flag] at scope
    rw [leaves,current]
    refine ⟨⟨exited,calls,?_⟩,fun flagged => absurd flagged flag⟩
    show InScope manager (factorAt methodTimeScalingFactors (state.thread.logMethodExit methodId clocks).1.methodLog)
      (List.filter state.shouldResetVTFactor (state.thread.logMethodExit methodId clocks).1.methodLog.methodStack)
      state.timeScalingFactor
    rw [left]
    exact scope.congr fun other _ => congrArg methodTimeScalingFactors (kept other)

/-- The controlling manager is in this process, or the event is no entry of a scaled method. -/
private def Suits (manager : ThreadManager) (methodTimeScalingFactors : Int → Factor) (event : Event) : Prop :=
  manager ≠ .client ∨ ∀ methodId clocks, event = .entry .method methodId clocks →
    methodTimeScalingFactors methodId = 1 ∨ methodTimeScalingFactors methodId = 0

private theorem step_scoped {next : State Factor} {event : Event} (inv : Inv manager methodTimeScalingFactors state)
    (suits : Suits manager methodTimeScalingFactors event)
    (stepped : state.step manager methodTimeScalingFactors event = some next) :
    Inv manager methodTimeScalingFactors next ∧ Scoped methodTimeScalingFactors state event next := by
  cases event with
  | entry kind methodId clocks =>
    cases stepped
    have entered : Inv manager methodTimeScalingFactors
        (state.enter manager methodTimeScalingFactors kind methodId clocks) := by
      refine inv_enter inv kind methodId clocks (suits.imp_right fun unscaled => ?_)
      by_cases method : kind = .method
      · exact .inr (unscaled methodId clocks (method ▸ rfl))
      · exact .inl method
    exact ⟨entered,entered.scope.single,entered.scope.inForce,nofun⟩
  | exit kind methodId clocks =>
    simp only [State.step,Option.ite_none_right_eq_some,Option.some.injEq] at stepped
    obtain ⟨newest,rfl⟩ := stepped
    obtain ⟨left,resets⟩ := inv_leave inv newest clocks
    exact ⟨left,left.scope.single,left.scope.inForce,fun _ _ _ _ flagged => resets flagged⟩

/-- A client's thread is never scaled. -/
private structure Unscaled (state : State Factor) : Prop where
  wf : WellFormed state.thread.methodLog
  unscaled : state.timeScalingFactor = 1

private theorem unscaled_step {next : State Factor} {event : Event} (inv : Unscaled state)
    (stepped : state.step .client methodTimeScalingFactors event = some next) : Unscaled next := by
  obtain ⟨wf,unscaled⟩ := inv
  cases event with
  | entry kind methodId clocks =>
    cases stepped
    have entered : WellFormed (state.thread.logMethodEntry methodId clocks).methodLog :=
      wellFormed_handle wf (.entry methodId clocks)
    cases kind with
    | method | model =>
      simp only [State.enter,State.onVexMethodEntry,State.notifySchedulerForVirtualizedTime,ite_self]
      exact ⟨entered,unscaled⟩
    | io => exact ⟨entered,unscaled⟩
  | exit kind methodId clocks =>
    simp only [State.step,Option.ite_none_right_eq_some,Option.some.injEq] at stepped
    obtain ⟨-,rfl⟩ := stepped
    have exited : WellFormed (state.thread.logMethodExit methodId clocks).1.methodLog :=
      wellFormed_handle wf (.exit methodId clocks)
    cases kind with
    | method =>
      simp only [State.leave,State.onVexMethodExit,State.notifySchedulerForVirtualizedTime,ite_self]
      exact ⟨exited,unscaled⟩
    | model | io => exact ⟨exited,unscaled⟩

/-- The entry of a scaled method flags its call at a client, without its factor. -/
private theorem client_entry_not_scoped (inv : Unscaled state) {methodId : Int} (scaled : methodTimeScalingFactors methodId ≠ 1) (nonzero : methodTimeScalingFactors methodId ≠ 0)
    (clocks : Times) : ¬ Scoped methodTimeScalingFactors state (.entry .method methodId clocks)
      (state.enter .client methodTimeScalingFactors .method methodId clocks) := by
  intro lawful
  obtain ⟨wf,unscaled⟩ := inv
  have changes : state.changesFactor (methodTimeScalingFactors methodId) = true :=
    decide_eq_true ⟨unscaled,scaled,nonzero⟩
  obtain ⟨-,new,-⟩ := entered_log state.thread methodId clocks wf
  have flagged := flagged_logMethodEntry wf methodId true clocks
  have inForce := lawful.inForce
  simp only [State.enter,State.onVexMethodEntry,changes,if_true,State.notifySchedulerForVirtualizedTime] at inForce
  have scope : methodTimeScalingFactors methodId = (state.logMethodEntry methodId true clocks).factorInScope
      methodTimeScalingFactors := by
    rw [State.factorInScope,flagged,if_pos rfl,List.singleton_append,List.head?_cons,Option.elim_some]
    exact congrArg methodTimeScalingFactors new.symm
  exact scaled (scope.trans (inForce.symm.trans unscaled))

end Flags

/-- For all well-nested sequences of calls, with any factors and any recursion: at most one open call is flagged, its
    factor is in force and its exit takes the factor back, exactly if the controlling manager is no client or no
    entered method is scaled. -/
theorem factor_scoped_iff (manager : ThreadManager) (methodTimeScalingFactors : Int → Factor) (stackTraces : Bool)
    (events : List Event) (last : State Factor)
    (executed : run (State.step manager methodTimeScalingFactors) (start stackTraces) events = some last) :
    Meets (State.step manager methodTimeScalingFactors)
        (fun state event => ∀ next ∈ state.step manager methodTimeScalingFactors event,
          Scoped methodTimeScalingFactors state event next) (start stackTraces) events ↔
      manager ≠ .client ∨ ∀ methodId clocks, .entry .method methodId clocks ∈ events →
        methodTimeScalingFactors methodId = 1 ∨ methodTimeScalingFactors methodId = 0 := by
  constructor
  · intro lawful
    by_contra fails
    rw [not_or,not_not,not_forall] at fails
    obtain ⟨rfl,methodId,fails⟩ := fails
    simp only [not_forall,not_or] at fails
    obtain ⟨clocks,member,scaled,nonzero⟩ := fails
    obtain ⟨before,after,rfl⟩ := List.append_of_mem member
    obtain ⟨middle,reached,-⟩ := (run_append _ before _ last).mp executed
    have started : Unscaled (start stackTraces : State Factor) := ⟨wellFormed_init,rfl⟩
    have unscaled := @invariant _ _ _ Unscaled (fun _ _ _ inv stepped => unscaled_step inv stepped) _ _ _ started reached
    obtain ⟨entered,-⟩ := meets_of_append lawful reached
    exact client_entry_not_scoped unscaled scaled nonzero clocks (entered _ rfl)
  · intro suits
    have meets : Meets (State.step manager methodTimeScalingFactors)
        (fun _ event => Suits manager methodTimeScalingFactors event) (start stackTraces) events := by
      refine meets_of_forall (fun event member => suits.imp_right fun unscaled methodId clocks is => ?_) _
      exact unscaled methodId clocks (is ▸ member)
    have started : Inv manager methodTimeScalingFactors (start stackTraces : State Factor) := inv_start stackTraces
    refine meets_of_invariant ?_ ?_ started meets
    · exact fun state event next inv holds stepped => (step_scoped inv holds stepped).1
    · exact fun state event inv holds next stepped => (step_scoped inv holds stepped).2

/-- A method with the factor 2 calls itself and one with the factor 3. -/
private def nestedCalls : List Event :=
  [.entry .method 1 0,.entry .method 1 0,.entry .method 2 0,.exit .method 2 0,.exit .method 1 0,.exit .method 1 0]

private def ownFactors (methodId : Int) : Nat := if methodId = 1 then 2 else 3

theorem nested_calls_scoped : Meets (State.step .base ownFactors)
    (fun state event => ∀ next ∈ state.step .base ownFactors event, Scoped ownFactors state event next) (start false)
    nestedCalls := by
  obtain ⟨last,executed,-⟩ := @exists_of_checked _ _ (State.step .base ownFactors) (fun _ => true) (start false)
    nestedCalls (by decide)
  exact (factor_scoped_iff .base ownFactors false nestedCalls last executed).mpr (.inl (by decide))

/-- At a client the call is flagged and the factor stays 1. -/
theorem client_call_not_scaled : ¬ ∀ (manager : ThreadManager) (methodTimeScalingFactors : Int → Nat) (stackTraces : Bool)
    (events : List Event) (last : State Nat),
    run (State.step manager methodTimeScalingFactors) (start stackTraces) events = some last →
    Meets (State.step manager methodTimeScalingFactors)
      (fun state event => ∀ next ∈ state.step manager methodTimeScalingFactors event,
        Scoped methodTimeScalingFactors state event next) (start stackTraces) events := by
  intro claimed
  obtain ⟨lawful,-⟩ := claimed .client ownFactors false [.entry .method 1 0] _ rfl
  have inForce := (lawful _ rfl).inForce
  revert inForce
  decide

end Vexjine.TimeScaling
