import Vexjine.IoSimulation

/-!
# The prediction methods that measured I/O durations reach

For the global, the state-aware and the operation-aware predictor: the object
that a finished I/O's duration is added to against the one of its prediction. The
arrays of the predictors have places for fewer than 32 threads beside the first,
and for 30 operations.
-/

namespace Vexjine.IoSimulation
set_option linter.unusedSimpArgs false
set_option linter.unusedSectionVars false

variable {Thread : Type} [DecidableEq Thread]

/-! ## The law -/

/-- The predictor's array has a place for it. -/
def PredictionMethod.Allocated : PredictionMethod → Prop
  | .ofThreads threadsInIo => threadsInIo < maxNumberOfThreadsPerformingIoInParallel
  | .ofInvocationPoint threadsInIo _ => threadsInIo < maxNumberOfThreadsPerformingIoInParallel
  | .ofOperation threadsInIo methodId =>
    threadsInIo < maxNumberOfThreadsPerformingIoInParallel ∧ 0 ≤ methodId ∧ methodId < totalIoOperations

instance : (method : PredictionMethod) → Decidable method.Allocated
  | .ofThreads _ => inferInstanceAs (Decidable (_ < _))
  | .ofInvocationPoint _ _ => inferInstanceAs (Decidable (_ < _))
  | .ofOperation _ _ => inferInstanceAs (Decidable (_ ∧ _))

/-- A thread that leaves an I/O measures it, and the duration is added to the prediction method that the I/O found at
    its start, which exists. -/
structure ReachesItsMethod (parameters : Parameters) (state : State Thread) (event : Event Thread) : Prop where
  measures : ∀ t, event = .beforeIoMethodExit t → (state.threads t).calls.head?.any Call.valid = true →
    (state.threads t).beforeIoMethodExit.position = .exiting
  reaches : ∀ t currentMethodId realTimeValueOnExit, event = .addPredictionInfo t currentMethodId realTimeValueOnExit →
    ∀ call ∈ (state.threads t).calls.head?, ∀ next ∈ step parameters state event,
      next.measurements = call.predictionMethod.toList.map (fun found => (found,realTimeValueOnExit)) ++
        state.measurements ∧ ∀ found ∈ call.predictionMethod, found.Allocated

/-- The global predictor adds a duration while as many other I/O are counted as when it predicted, the two others before
    the thread has looked up another method. The methods taken exist. -/
structure Undisturbed (predictor : Predictor) (state : State Thread) (event : Event Thread) : Prop where
  paired : Paired state event
  others : ∀ t currentMethodId realTimeValueOnExit, event = .addPredictionInfo t currentMethodId realTimeValueOnExit →
    predictor = .globalIoPrediction → ∀ call ∈ (state.threads t).calls.head?, state.inside.length = call.others
  latest : ∀ t currentMethodId realTimeValueOnExit, event = .addPredictionInfo t currentMethodId realTimeValueOnExit →
    predictor = .stateAwareIoPrediction ∨ predictor = .operationAwareIoPrediction →
    ∀ call ∈ (state.threads t).calls.head?, call.lookup = (state.threads t).lookups
  starts : ∀ t currentMethodId, event = .getPredictionValue t currentMethodId →
    ∀ method ∈ predictionMethodAtStart predictor state.threadsInIo (state.threads t) currentMethodId, method.Allocated
  ends : ∀ t currentMethodId realTimeValueOnExit, event = .addPredictionInfo t currentMethodId realTimeValueOnExit →
    ∀ method ∈ predictionMethodAtEnd predictor state.threadsInIo (state.threads t) currentMethodId, method.Allocated

instance (predictor : Predictor) (state : State Thread) : (event : Event Thread) →
    Decidable (Undisturbed predictor state event)
  | .addPredictionInfo t currentMethodId realTimeValueOnExit =>
    have : Decidable (∀ call ∈ (state.threads t).calls.head?, state.inside.length = call.others) :=
      Option.decidableForallMem _
    have : Decidable (∀ call ∈ (state.threads t).calls.head?, call.lookup = (state.threads t).lookups) :=
      Option.decidableForallMem _
    have : Decidable (∀ method ∈ predictionMethodAtEnd predictor state.threadsInIo (state.threads t) currentMethodId,
        method.Allocated) :=
      Option.decidableForallMem _
    decidable_of_iff ((predictor = .globalIoPrediction →
        ∀ call ∈ (state.threads t).calls.head?, state.inside.length = call.others) ∧
      (predictor = .stateAwareIoPrediction ∨ predictor = .operationAwareIoPrediction →
        ∀ call ∈ (state.threads t).calls.head?, call.lookup = (state.threads t).lookups) ∧
      ∀ method ∈ predictionMethodAtEnd predictor state.threadsInIo (state.threads t) currentMethodId, method.Allocated)
      ⟨fun own => ⟨⟨nofun,nofun⟩,fun _ _ _ same => by cases same; exact own.1,
          fun _ _ _ same => by cases same; exact own.2.1,nofun,fun _ _ _ same => by cases same; exact own.2.2⟩,
        fun undisturbed =>
          ⟨undisturbed.others t _ _ rfl,undisturbed.latest t _ _ rfl,undisturbed.ends t _ _ rfl⟩⟩
  | .getPredictionValue t currentMethodId =>
    have : Decidable (∀ method ∈ predictionMethodAtStart predictor state.threadsInIo (state.threads t) currentMethodId,
        method.Allocated) :=
      Option.decidableForallMem _
    decidable_of_iff (∀ method ∈ predictionMethodAtStart predictor state.threadsInIo (state.threads t) currentMethodId,
        method.Allocated)
      ⟨fun own => ⟨⟨nofun,nofun⟩,nofun,nofun,fun _ _ same => by cases same; exact own,nofun⟩,
        fun undisturbed => undisturbed.starts t _ rfl⟩
  | .beforeIoMethodExit t => decidable_of_iff (Paired state (.beforeIoMethodExit t))
      ⟨fun paired => ⟨paired,nofun,nofun,nofun,nofun⟩,Undisturbed.paired⟩
  | .afterIoMethodEntry t invocationPointHashValue =>
    decidable_of_iff (Paired state (.afterIoMethodEntry t invocationPointHashValue))
      ⟨fun paired => ⟨paired,nofun,nofun,nofun,nofun⟩,Undisturbed.paired⟩
  | .enteringMethod _ _ | .exitingMethod _ _ | .increaseThreadsInIo _ | .recognize _ _ _
  | .decreaseThreadsInIoOfCached _ | .onStart _ | .decreaseThreadsInIo _ | .onEnd _ =>
    .isTrue ⟨⟨nofun,nofun⟩,nofun,nofun,nofun,nofun⟩

/-! ## What a step leaves of a thread's calls -/

/-- The I/O whose method has been looked up. -/
def IoHandler.predicted (handler : IoHandler) : List Call :=
  match handler.position with
  | .entered | .counted => handler.begun.tail
  | _ => handler.begun

/-- Nothing is looked up; a call may be dropped, or get its protocol. -/
structure Kept (before after : IoHandler) : Prop where
  predicted : ∀ call ∈ after.predicted, ∃ earlier ∈ before.predicted, call.predictionMethod = earlier.predictionMethod ∧
    call.others = earlier.others ∧ call.lookup = earlier.lookup
  lookups : after.lookups = before.lookups
  lastIoPredictionMethod : after.lastIoPredictionMethod = before.lastIoPredictionMethod

/-- What a step does to one thread. -/
inductive ThreadStep (event : Event Thread) (t : Thread) (before after : IoHandler) : Prop
  | keeps (kept : Kept before after) (begun : after.begun.length ≤ before.begun.length)
  | enters (invocationPointHashValue : Int32) (isEntry : event = .afterIoMethodEntry t invocationPointHashValue)
      (valid : invalidIoInvocationPoint before.stackDepth invocationPointHashValue = false) (kept : Kept before after)
      (begun : after.begun.length = before.begun.length + 1)
  | looksUp (currentMethodId : Int32) (isLookup : event = .getPredictionValue t currentMethodId)
      (begun : after.begun.length ≤ before.begun.length)

variable {parameters : Parameters} {predictor : Predictor} {threadsInIo : UInt32} {state next last : State Thread}
  {event : Event Thread} {lastIoPredictionMethod : Thread → Option PredictionMethod} {handler after : IoHandler} {t : Thread}

/-- Before the lookup of the innermost I/O. -/
theorem predicted_entered (here : handler.position = .entered ∨ handler.position = .counted) :
    handler.predicted = handler.begun.tail := by
  rcases here with entered | counted
  · simp [IoHandler.predicted,entered]
  · simp [IoHandler.predicted,counted]

theorem predicted_other (notEntered : handler.position ≠ .entered) (notCounted : handler.position ≠ .counted) :
    handler.predicted = handler.begun := by
  unfold IoHandler.predicted
  split
  · exact absurd ‹_› notEntered
  · exact absurd ‹_› notCounted
  · rfl

private theorem kept_of_predicted (predicted : after.predicted = handler.predicted) (lookups : after.lookups = handler.lookups)
    (lastIoPredictionMethod : after.lastIoPredictionMethod = handler.lastIoPredictionMethod) : Kept handler after :=
  ⟨fun call member => ⟨call,predicted ▸ member,rfl,rfl,rfl⟩,lookups,lastIoPredictionMethod⟩

/-- A thread goes on after its lookup. -/
private theorem moves {position : Position} (notEntered : handler.position ≠ .entered)
    (notCounted : handler.position ≠ .counted) (laterEntered : position ≠ .entered) (laterCounted : position ≠ .counted) :
    ThreadStep event t handler (handler.setPosition position) := by
  refine .keeps (kept_of_predicted ?_ rfl rfl) le_rfl
  rw [predicted_other laterEntered laterCounted,predicted_other notEntered notCounted]
  rfl

private theorem enter_step {invocationPointHashValue : Int32} (outside : handler.position = .outside) :
    ThreadStep (.afterIoMethodEntry t invocationPointHashValue) t handler
      (handler.afterIoMethodEntry invocationPointHashValue) := by
  have before : handler.predicted = handler.begun := predicted_other (by simp [outside]) (by simp [outside])
  cases invalid : invalidIoInvocationPoint handler.stackDepth invocationPointHashValue with
  | true =>
    have begun : (handler.afterIoMethodEntry invocationPointHashValue).begun = handler.begun := by
      simp [IoHandler.begun,IoHandler.afterIoMethodEntry,Call.valid,invalid]
    refine .keeps (kept_of_predicted ?_ ?_ ?_) (by rw [begun])
    · rw [before,predicted_other (by simp [IoHandler.afterIoMethodEntry,invalid,outside])
        (by simp [IoHandler.afterIoMethodEntry,invalid,outside]),begun]
    · simp [IoHandler.afterIoMethodEntry,invalid]
    · simp [IoHandler.afterIoMethodEntry,invalid]
  | false =>
    have begun : (handler.afterIoMethodEntry invocationPointHashValue).begun =
        { stackDepth := handler.stackDepth, invocationPointHashValue } :: handler.begun := by
      simp [IoHandler.begun,IoHandler.afterIoMethodEntry,Call.valid,invalid]
    refine .enters invocationPointHashValue rfl invalid (kept_of_predicted ?_ ?_ ?_) (by rw [begun,List.length_cons])
    · rw [before,predicted_entered (.inl (by simp [IoHandler.afterIoMethodEntry,invalid])),begun,List.tail_cons]
    · simp [IoHandler.afterIoMethodEntry,invalid]
    · simp [IoHandler.afterIoMethodEntry,invalid]

private theorem leave_step (paired : Paired state (.beforeIoMethodExit t)) (outside : (state.threads t).position = .outside) :
    ThreadStep event t (state.threads t) (state.threads t).beforeIoMethodExit := by
  have before : (state.threads t).predicted = (state.threads t).begun :=
    predicted_other (by simp [outside]) (by simp [outside])
  have leaves := paired.leaves t rfl
  unfold IoHandler.beforeIoMethodExit
  split_ifs with invalid
  · have skips : (state.threads t).calls.head?.any Call.valid = false := by
      rw [invalid] at leaves
      cases calls : (state.threads t).calls with
      | nil => rfl
      | cons call outer =>
        rw [calls] at leaves
        simpa [Call.valid] using leaves.symm
    refine .keeps (kept_of_predicted ?_ rfl rfl) (by rw [begun_pop_invalid skips])
    rw [before,predicted_other (by simp [IoHandler.pop,outside]) (by simp [IoHandler.pop,outside])]
    exact begun_pop_invalid skips
  · exact moves (by simp [outside]) (by simp [outside]) (by simp) (by simp)

private theorem start_step {normal : Bool} {inside pending : Nat} (fits : Consistent normal handler inside pending)
    (here : handler.position = .starting) : ThreadStep event t handler
      ((handler.note fun call => { call with protocol := some handler.protocol }).setPosition .outside) := by
  obtain ⟨call,outer,calls,begun⟩ := begun_of_active (fits.active (by simp [here]))
  have valid : call.valid = true := by simpa [calls] using fits.active (by simp [here])
  have sameValid : Call.valid { call with protocol := some handler.protocol } = true := valid
  have noted : ((handler.note fun call => { call with protocol := some handler.protocol }).setPosition .outside).begun =
      { call with protocol := some handler.protocol } :: outer.filter Call.valid := by
    simp only [IoHandler.begun,setPosition_calls,IoHandler.note,calls,List.filter_cons_of_pos sameValid]
  refine .keeps ⟨fun later member => ?_,?_,?_⟩ (by rw [noted,begun,List.length_cons,List.length_cons])
  · rw [predicted_other (by simp) (by simp),noted] at member
    rw [predicted_other (by simp [here]) (by simp [here]),begun]
    rcases List.mem_cons.mp member with rfl | rest
    · exact ⟨call,List.mem_cons_self,rfl,rfl,rfl⟩
    · exact ⟨later,List.mem_cons_of_mem _ rest,rfl,rfl,rfl⟩
  · simp [IoHandler.note,calls,IoHandler.setPosition]
  · simp [IoHandler.note,calls,IoHandler.setPosition]

private theorem end_step {normal : Bool} {inside pending : Nat} (fits : Consistent normal handler inside pending)
    (here : handler.position = .ending) :
    ThreadStep event t handler (handler.resetIoStateFlags.pop.setPosition .outside) := by
  have popped : handler.resetIoStateFlags.pop.begun = handler.begun.tail :=
    show handler.pop.begun = _ from begun_pop (fits.active (by simp [here]))
  refine .keeps ⟨fun call member => ⟨call,?_,rfl,rfl,rfl⟩,rfl,rfl⟩ (by simp [popped])
  rw [predicted_other (by simp) (by simp),setPosition_begun,popped] at member
  rw [predicted_other (by simp [here]) (by simp [here])]
  exact List.mem_of_mem_tail member

private theorem threadStep_of_update (threads : next.threads = Function.update state.threads t after)
    (own : ThreadStep event t (state.threads t) after) (u : Thread) :
    ThreadStep event u (state.threads u) (next.threads u) := by
  rw [threads]
  by_cases same : u = t
  · rw [same,Function.update_self]
    exact own
  · rw [Function.update_of_ne same]
    exact .keeps (kept_of_predicted rfl rfl rfl) le_rfl

theorem threadStep_of_step (inv : Inv parameters threadsInIo state) (paired : Paired state event)
    (stepped : step parameters state event = some next) (u : Thread) :
    ThreadStep event u (state.threads u) (next.threads u) := by
  cases event with
  | enteringMethod t methodId =>
    simp only [step,Option.ite_none_right_eq_some,Option.some.injEq] at stepped
    obtain ⟨-,rfl⟩ := stepped
    refine threadStep_of_update rfl ?_ u
    exact .keeps (kept_of_predicted rfl rfl rfl) le_rfl
  | exitingMethod t methodId =>
    simp only [step,Option.ite_none_right_eq_some,Option.some.injEq] at stepped
    obtain ⟨-,rfl⟩ := stepped
    refine threadStep_of_update rfl ?_ u
    exact .keeps (kept_of_predicted rfl rfl rfl) le_rfl
  | afterIoMethodEntry t invocationPointHashValue =>
    simp only [step,Option.ite_none_right_eq_some,Option.some.injEq] at stepped
    obtain ⟨outside,rfl⟩ := stepped
    exact threadStep_of_update rfl (enter_step outside) u
  | increaseThreadsInIo t =>
    simp only [step,Option.ite_none_right_eq_some,Option.some.injEq] at stepped
    obtain ⟨here,rfl⟩ := stepped
    refine threadStep_of_update rfl ?_ u
    refine .keeps (kept_of_predicted ?_ rfl rfl) le_rfl
    rw [predicted_entered (.inl here),predicted_entered (.inr rfl)]
    rfl
  | getPredictionValue t currentMethodId =>
    simp only [step,Option.ite_none_right_eq_some,Option.some.injEq] at stepped
    obtain ⟨here,rfl⟩ := stepped
    have active := (inv.consistent t).active (by simp [here])
    obtain ⟨call,outer,calls,begun⟩ := begun_of_active active
    have valid : call.valid = true := by simpa [calls] using active
    refine threadStep_of_update rfl ?_ u
    refine .looksUp currentMethodId rfl (le_of_eq ?_)
    simp only [Call.valid,Bool.not_eq_true'] at valid
    rw [begun]
    simp [IoHandler.begun,IoHandler.note,calls,Call.valid,valid]
  | recognize t isRecognizedAsIoOperation shouldRandomlyExcludeIo =>
    simp only [step,Option.ite_none_right_eq_some,Option.some.injEq] at stepped
    obtain ⟨here,rfl⟩ := stepped
    have before : (state.threads t).predicted = (state.threads t).begun :=
      predicted_other (by simp [here]) (by simp [here])
    unfold State.recognize
    dsimp only
    split_ifs
    · refine threadStep_of_update rfl ?_ u
      refine .keeps (kept_of_predicted ?_ rfl rfl) le_rfl
      rw [before,predicted_other (by simp) (by simp)]
      rfl
    · refine threadStep_of_update rfl ?_ u
      refine .keeps (kept_of_predicted ?_ rfl rfl) le_rfl
      rw [before,predicted_other (by simp) (by simp)]
      rfl
    · refine threadStep_of_update rfl ?_ u
      exact moves (by simp [here]) (by simp [here]) (by simp) (by simp)
  | decreaseThreadsInIoOfCached t =>
    simp only [step,Option.ite_none_right_eq_some,Option.some.injEq] at stepped
    obtain ⟨here,rfl⟩ := stepped
    refine threadStep_of_update rfl ?_ u
    exact moves (by simp [here]) (by simp [here]) (by simp) (by simp)
  | onStart t =>
    simp only [step,Option.ite_none_right_eq_some,Option.some.injEq] at stepped
    obtain ⟨here,rfl⟩ := stepped
    unfold State.onStart
    dsimp only
    split_ifs
    · refine threadStep_of_update rfl ?_ u
      exact start_step (inv.consistent t) here
    · refine threadStep_of_update rfl ?_ u
      exact start_step (inv.consistent t) here
  | beforeIoMethodExit t =>
    simp only [step,Option.ite_none_right_eq_some,Option.some.injEq] at stepped
    obtain ⟨outside,rfl⟩ := stepped
    exact threadStep_of_update rfl (leave_step paired outside) u
  | decreaseThreadsInIo t =>
    simp only [step,Option.ite_none_right_eq_some,Option.some.injEq] at stepped
    obtain ⟨here,rfl⟩ := stepped
    have own : ThreadStep (.decreaseThreadsInIo t) t (state.threads t) ((state.threads t).setPosition .uncounted) :=
      moves (by simp [here]) (by simp [here]) (by simp) (by simp)
    cases (state.threads t).recognizingIoAsCached with
    | true => exact threadStep_of_update rfl own u
    | false => exact threadStep_of_update rfl own u
  | addPredictionInfo t currentMethodId realTimeValueOnExit =>
    simp only [step,Option.ite_none_right_eq_some,Option.some.injEq] at stepped
    obtain ⟨here,rfl⟩ := stepped
    have own : ThreadStep (.addPredictionInfo t currentMethodId realTimeValueOnExit) t (state.threads t)
        ((state.threads t).setPosition .ending) := moves (by simp [here]) (by simp [here]) (by simp) (by simp)
    unfold State.addPredictionInfo
    dsimp only
    split
    · exact threadStep_of_update rfl own u
    · exact threadStep_of_update rfl own u
  | onEnd t =>
    simp only [step,Option.ite_none_right_eq_some,Option.some.injEq] at stepped
    obtain ⟨here,rfl⟩ := stepped
    unfold State.onEnd
    dsimp only
    split_ifs
    · refine threadStep_of_update rfl ?_ u
      exact end_step (inv.consistent t) here
    · refine threadStep_of_update rfl ?_ u
      exact end_step (inv.consistent t) here

/-! ## What the calls remember -/

/-- What a lookup finds, for the global predictor by the number of other I/O. -/
def Call.Chosen (predictor : Predictor) (threadsInIo : UInt32) (call : Call) : Prop :=
  match predictor with
  | .noIoPrediction => call.predictionMethod = none
  | .globalIoPrediction => call.predictionMethod = some (.ofThreads (threadsInIo + UInt32.ofNat call.others))
  | .stateAwareIoPrediction | .operationAwareIoPrediction => call.predictionMethod.isSome = true

/-- The cached method is that of the last lookup. -/
private structure Remembers (predictor : Predictor) (threadsInIo : UInt32) (handler : IoHandler) : Prop where
  chosen : ∀ call ∈ handler.predicted, call.Chosen predictor threadsInIo
  bounded : ∀ call ∈ handler.predicted, call.lookup ≤ handler.lookups
  latest : ∀ call ∈ handler.predicted, call.lookup = handler.lookups →
    predictor = .stateAwareIoPrediction ∨ predictor = .operationAwareIoPrediction →
    handler.lastIoPredictionMethod = call.predictionMethod

private theorem remembers_initial (t : Thread) :
    Remembers predictor threadsInIo ((initial threadsInIo lastIoPredictionMethod).threads t) := by
  constructor <;> simp [initial,IoHandler.predicted,IoHandler.begun]

private theorem Remembers.keeps (remembers : Remembers predictor threadsInIo handler) (kept : Kept handler after) :
    Remembers predictor threadsInIo after := by
  constructor
  case chosen =>
    intro call member
    obtain ⟨earlier,found,method,others,-⟩ := kept.predicted call member
    have chosen := remembers.chosen earlier found
    unfold Call.Chosen at chosen ⊢
    rw [method,others]
    exact chosen
  case bounded =>
    intro call member
    obtain ⟨earlier,found,-,-,lookup⟩ := kept.predicted call member
    rw [lookup,kept.lookups]
    exact remembers.bounded earlier found
  case latest =>
    intro call member same kind
    obtain ⟨earlier,found,method,-,lookup⟩ := kept.predicted call member
    rw [kept.lastIoPredictionMethod,method]
    exact remembers.latest earlier found (by rw [← lookup,same,kept.lookups]) kind

private theorem predict_remembers {currentMethodId : Int32} (inv : Inv parameters threadsInIo state)
    (here : (state.threads t).position = .counted)
    (remembers : Remembers parameters.predictor threadsInIo (state.threads t)) :
    Remembers parameters.predictor threadsInIo
      ((state.getPredictionValue parameters t currentMethodId).threads t) := by
  have consistent := inv.consistent t
  obtain ⟨call,outer,calls,begun⟩ := begun_of_active (consistent.active (by simp [here]))
  have valid : call.valid = true := by simpa [calls] using consistent.active (by simp [here])
  have before : (state.threads t).predicted = outer.filter Call.valid := by
    rw [predicted_entered (.inr here),begun,List.tail_cons]
  have inside := consistent.inside
  simp only [IoHandler.headInside,here] at inside
  have member : t ∈ state.inside := List.count_pos_iff.mp (by omega)
  have length : state.inside.length = state.inside.length - 1 + 1 := by
    have := List.length_pos_of_mem member
    omega
  set found := predictionMethodAtStart parameters.predictor state.threadsInIo (state.threads t) currentMethodId with isFound
  set noted : Call := { call with
    predictionMethod := found, others := state.inside.length - 1, lookup := (state.threads t).lookups + 1 } with isNoted
  have after : (state.getPredictionValue parameters t currentMethodId).threads t = { state.threads t with
      calls := noted :: outer
      lastIoPredictionMethod := found.or (state.threads t).lastIoPredictionMethod
      lookups := (state.threads t).lookups + 1
      position := .predicted } := by
    simp [State.getPredictionValue,State.setThread,IoHandler.note,calls,isFound,isNoted]
  have predicted : ((state.getPredictionValue parameters t currentMethodId).threads t).predicted =
      noted :: (state.threads t).predicted := by
    have sameValid : noted.valid = true := valid
    rw [after,before,predicted_other (by simp) (by simp)]
    simp [IoHandler.begun,sameValid]
  have chosen : noted.Chosen parameters.predictor threadsInIo := by
    have index : state.threadsInIo - 1 = threadsInIo + UInt32.ofNat (state.inside.length - 1) := by
      rw [inv.counted,length,UInt32.ofNat_add,← UInt32.add_assoc]
      exact UInt32.add_sub_cancel _ 1
    cases kind : parameters.predictor <;>
      simp [Call.Chosen,isNoted,isFound,kind,predictionMethodAtStart,index]
  constructor
  case chosen =>
    rw [predicted]
    exact List.forall_mem_cons.mpr ⟨chosen,remembers.chosen⟩
  case bounded =>
    rw [predicted,after]
    exact List.forall_mem_cons.mpr ⟨le_rfl,fun call member => Nat.le_succ_of_le (remembers.bounded call member)⟩
  case latest =>
    rw [predicted,after]
    refine List.forall_mem_cons.mpr ⟨fun _ kind => ?_,fun call member same => ?_⟩
    · rcases kind with kind | kind <;> simp [isNoted,isFound,kind,predictionMethodAtStart]
    · have bounded := remembers.bounded call member
      simp only at same
      omega

private theorem step_remembers (inv : Inv parameters threadsInIo state)
    (all : ∀ t, Remembers parameters.predictor threadsInIo (state.threads t)) (paired : Paired state event)
    (stepped : step parameters state event = some next) (u : Thread) :
    Remembers parameters.predictor threadsInIo (next.threads u) := by
  cases threadStep_of_step inv paired stepped u with
  | keeps kept begun => exact (all u).keeps kept
  | enters _ _ _ kept _ => exact (all u).keeps kept
  | looksUp currentMethodId isLookup begun =>
    subst isLookup
    simp only [step,Option.ite_none_right_eq_some,Option.some.injEq] at stepped
    obtain ⟨here,rfl⟩ := stepped
    exact predict_remembers inv here (all u)

/-! ## The measured durations -/

private theorem methodAtEnd {currentMethodId : Int32} {realTimeValueOnExit : Int} {call : Call}
    (inv : Inv parameters threadsInIo state) (remembers : Remembers parameters.predictor threadsInIo (state.threads t))
    (undisturbed : Undisturbed parameters.predictor state (.addPredictionInfo t currentMethodId realTimeValueOnExit))
    (first : call ∈ (state.threads t).calls.head?) (found : call ∈ (state.threads t).predicted) :
    predictionMethodAtEnd parameters.predictor state.threadsInIo (state.threads t) currentMethodId =
      call.predictionMethod := by
  have chosen := remembers.chosen call found
  have others := undisturbed.others t _ _ rfl
  have latest := undisturbed.latest t _ _ rfl
  have cached := remembers.latest call found
  cases kind : parameters.predictor with
  | noIoPrediction =>
    rw [kind] at chosen
    exact chosen.symm
  | globalIoPrediction =>
    rw [kind] at chosen
    rw [show call.predictionMethod = _ from chosen,← others kind call first,← inv.counted]
    rfl
  | stateAwareIoPrediction =>
    rw [kind] at chosen
    obtain ⟨method,isMethod⟩ := Option.isSome_iff_exists.mp chosen
    simp [predictionMethodAtEnd,cached (latest (.inl kind) call first) (.inl kind),isMethod]
  | operationAwareIoPrediction =>
    rw [kind] at chosen
    obtain ⟨method,isMethod⟩ := Option.isSome_iff_exists.mp chosen
    simp [predictionMethodAtEnd,cached (latest (.inr kind) call first) (.inr kind),isMethod]

private theorem reaches_of_undisturbed (inv : Inv parameters threadsInIo state)
    (all : ∀ t, Remembers parameters.predictor threadsInIo (state.threads t))
    (undisturbed : Undisturbed parameters.predictor state event) : ReachesItsMethod parameters state event := by
  constructor
  case measures =>
    rintro t rfl valid
    obtain ⟨call,outer,calls,-⟩ := begun_of_active valid
    have leaves := undisturbed.paired.leaves t rfl
    simp only [calls,List.head?_cons,Option.any_some,Call.valid,Bool.not_eq_true'] at valid
    simp [calls,valid] at leaves
    simp [IoHandler.beforeIoMethodExit,leaves]
  case reaches =>
    rintro t currentMethodId realTimeValueOnExit rfl call first next stepped
    simp only [step,Option.mem_def,Option.ite_none_right_eq_some,Option.some.injEq] at stepped
    obtain ⟨here,rfl⟩ := stepped
    obtain ⟨head,outer,calls,begun⟩ := begun_of_active ((inv.consistent t).active (by simp [here]))
    have found : call ∈ (state.threads t).predicted := by
      have same : head = call := by simpa [calls] using first
      rw [predicted_other (by simp [here]) (by simp [here]),begun,same]
      exact List.mem_cons_self
    have method := methodAtEnd inv (all t) undisturbed first found
    have allocated := undisturbed.ends t _ _ rfl
    rw [method] at allocated
    refine ⟨?_,allocated⟩
    unfold State.addPredictionInfo
    dsimp only
    rw [method]
    cases call.predictionMethod with
    | none => rfl
    | some found => rfl

private def predicting (predictor : Predictor) : Parameters := ⟨predictor,false,false,true⟩

/-- The second I/O ends first. -/
private def within : List (Event (Fin 2)) :=
  startIo 0 1 2 true false ++ startIo 1 1 3 true false ++ endIo 1 3 40 ++ endIo 0 2 30

/-- The first I/O ends first. -/
private def crossing : List (Event (Fin 2)) :=
  startIo 0 1 2 true false ++ startIo 1 1 3 true false ++ endIo 0 2 30 ++ endIo 1 3 40

private theorem misses {currentMethodId : Int32} {realTimeValueOnExit : Int}
    (checked : (state.threads t).calls.head?.any (fun call =>
      (step parameters state (.addPredictionInfo t currentMethodId realTimeValueOnExit)).any fun next =>
        decide (next.measurements ≠ call.predictionMethod.toList.map (fun found => (found,realTimeValueOnExit)) ++
          state.measurements)) = true) :
    ¬ ReachesItsMethod parameters state (.addPredictionInfo t currentMethodId realTimeValueOnExit) := by
  obtain ⟨call,first,later⟩ := (Option.any_eq_true _ _).mp checked
  obtain ⟨next,stepped,differs⟩ := (Option.any_eq_true _ _).mp later
  intro reaches
  exact of_decide_eq_true differs (reaches.reaches t _ _ rfl call first next stepped).1

/-- A thread that leaves its I/O while another one has begun its own. -/
private def leavesFirst : List (Event (Fin 2)) :=
  startIo 0 1 2 true false ++ startIo 1 1 3 true false ++ [.beforeIoMethodExit 0,.decreaseThreadsInIo 0]

/-- An I/O of another invocation point and another operation inside one of the same thread. -/
private def leavesOuter : List (Event (Fin 2)) :=
  [.enteringMethod 0 4] ++ startIo 0 7 2 true false ++ startIo 0 9 3 true false ++ endIo 0 3 20 ++
    [.beforeIoMethodExit 0,.decreaseThreadsInIo 0]

end Vexjine.IoSimulation
