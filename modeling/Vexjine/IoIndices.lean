import Vexjine.IoPredictions

/-!
# The count of the threads in I/O and the indices taken from it

The arrays of the global and the operation-aware predictor have places for fewer
than 32 threads beside the first, the latter for 30 operations; the state-aware
one bounds its index itself.
-/

namespace Vexjine.IoSimulation
set_option linter.unusedSimpArgs false
set_option linter.unusedSectionVars false

variable {Thread : Type} [DecidableEq Thread]

def Call.isNotCached (call : Call) : Bool := decide (call.protocol ≠ some .serialSystemCallRealTime)

/-- The thread is inside an I/O that is not cached, from the increase of the count to its decrease. -/
def IoHandler.isInside (handler : IoHandler) : Bool :=
  match handler.position with
  | .outside | .exiting => handler.begun.any Call.isNotCached
  | .entered | .uncounted | .ending => handler.begun.tail.any Call.isNotCached
  | .counted | .predicted | .cached => true
  | .starting => !handler.recognizingIoAsCached || handler.begun.tail.any Call.isNotCached

/-- The count is the number of threads inside an I/O, and the methods that are taken exist. -/
structure InBounds (parameters : Parameters) (state : State Thread) (event : Event Thread) : Prop where
  counts : ∃ threads : Finset Thread, (∀ t, t ∈ threads ↔ (state.threads t).isInside = true) ∧
    state.threadsInIo.toNat = threads.card
  starts : ∀ t currentMethodId, event = .getPredictionValue t currentMethodId →
    ∀ method ∈ predictionMethodAtStart parameters.predictor state.threadsInIo (state.threads t) currentMethodId,
      method.Allocated
  ends : ∀ t currentMethodId realTimeValueOnExit, event = .addPredictionInfo t currentMethodId realTimeValueOnExit →
    ∀ method ∈ predictionMethodAtEnd parameters.predictor state.threadsInIo (state.threads t) currentMethodId,
      method.Allocated

/-- The lookup at the start stays in the array with so many I/O in progress. -/
def FitsAtStart (predictor : Predictor) (threadsInIo : Nat) (currentMethodId : Int32) : Prop :=
  match predictor with
  | .noIoPrediction | .stateAwareIoPrediction => True
  | .globalIoPrediction => threadsInIo ≤ 32
  | .operationAwareIoPrediction => threadsInIo < 32 ∧ 0 ≤ currentMethodId ∧ currentMethodId < totalIoOperations

instance : (predictor : Predictor) → (threadsInIo : Nat) → (currentMethodId : Int32) →
    Decidable (FitsAtStart predictor threadsInIo currentMethodId)
  | .noIoPrediction,_,_ => .isTrue trivial
  | .stateAwareIoPrediction,_,_ => .isTrue trivial
  | .globalIoPrediction,_,_ => inferInstanceAs (Decidable (_ ≤ _))
  | .operationAwareIoPrediction,_,_ => inferInstanceAs (Decidable (_ ∧ _))

/-- No I/O begins inside another one of its thread, and not too many are in progress at once. -/
structure Roomy (predictor : Predictor) (state : State Thread) (event : Event Thread) : Prop where
  paired : Paired state event
  single : ∀ t invocationPointHashValue, event = .afterIoMethodEntry t invocationPointHashValue →
    invalidIoInvocationPoint (state.threads t).stackDepth invocationPointHashValue = false →
    (state.threads t).begun = []
  increases : ∀ t, event = .increaseThreadsInIo t → state.inside.length + 1 < 4294967296
  starts : ∀ t currentMethodId, event = .getPredictionValue t currentMethodId →
    FitsAtStart predictor state.inside.length currentMethodId
  ends : ∀ t currentMethodId realTimeValueOnExit, event = .addPredictionInfo t currentMethodId realTimeValueOnExit →
    predictor = .globalIoPrediction → state.inside.length < 32

instance (predictor : Predictor) (state : State Thread) : (event : Event Thread) →
    Decidable (Roomy predictor state event)
  | .afterIoMethodEntry t invocationPointHashValue => decidable_of_iff
      (Paired state (.afterIoMethodEntry t invocationPointHashValue) ∧
        (invalidIoInvocationPoint (state.threads t).stackDepth invocationPointHashValue = false →
          (state.threads t).begun.isEmpty = true))
      ⟨fun own => ⟨own.1,fun _ _ same valid => by cases same; exact List.isEmpty_iff.mp (own.2 valid),nofun,nofun,nofun⟩,
        fun roomy => ⟨roomy.paired,fun valid => List.isEmpty_iff.mpr (roomy.single t _ rfl valid)⟩⟩
  | .beforeIoMethodExit t => decidable_of_iff (Paired state (.beforeIoMethodExit t))
      ⟨fun paired => ⟨paired,nofun,nofun,nofun,nofun⟩,Roomy.paired⟩
  | .increaseThreadsInIo t => decidable_of_iff (state.inside.length + 1 < 4294967296)
      ⟨fun own => ⟨⟨nofun,nofun⟩,nofun,fun _ _ => own,nofun,nofun⟩,fun roomy => roomy.increases t rfl⟩
  | .getPredictionValue t currentMethodId =>
    decidable_of_iff (FitsAtStart predictor state.inside.length currentMethodId)
      ⟨fun own => ⟨⟨nofun,nofun⟩,nofun,nofun,fun _ _ same => by cases same; exact own,nofun⟩,
        fun roomy => roomy.starts t _ rfl⟩
  | .addPredictionInfo t currentMethodId realTimeValueOnExit =>
    decidable_of_iff (predictor = .globalIoPrediction → state.inside.length < 32)
      ⟨fun own => ⟨⟨nofun,nofun⟩,nofun,nofun,nofun,fun _ _ _ _ => own⟩,fun roomy => roomy.ends t _ _ rfl⟩
  | .enteringMethod _ _ | .exitingMethod _ _ | .recognize _ _ _ | .decreaseThreadsInIoOfCached _ | .onStart _
  | .decreaseThreadsInIo _ | .onEnd _ => .isTrue ⟨⟨nofun,nofun⟩,nofun,nofun,nofun,nofun⟩

/-- The thread has at most one I/O, and its cached method exists after the lookup. -/
private structure Alone (predictor : Predictor) (handler : IoHandler) : Prop where
  alone : handler.begun.length ≤ 1
  cached : handler.predicted ≠ [] → predictor = .stateAwareIoPrediction ∨ predictor = .operationAwareIoPrediction →
    ∃ method, handler.lastIoPredictionMethod = some method ∧ method.Allocated

variable {parameters : Parameters} {predictor : Predictor} {threadsInIo : UInt32} {state next last : State Thread}
  {event : Event Thread} {lastIoPredictionMethod : Thread → Option PredictionMethod} {handler after : IoHandler} {t : Thread}

private theorem Alone.keeps (single : Alone predictor handler) (kept : Kept handler after)
    (alone : after.begun.length ≤ 1) : Alone predictor after := by
  refine ⟨alone,fun some kind => ?_⟩
  obtain ⟨call,member⟩ := List.exists_mem_of_ne_nil _ some
  obtain ⟨earlier,found,-⟩ := kept.predicted call member
  rw [kept.lastIoPredictionMethod]
  exact single.cached (List.ne_nil_of_mem found) kind

/-- The count of a thread's I/O is positive inside one. -/
private theorem inside_iff {normal : Bool} {inside pending : Nat} (fits : Consistent normal handler inside pending) :
    0 < inside ↔ handler.isInside = true := by
  have outer : handler.begun.tail.any Call.isNotCached = decide (0 < handler.begun.tail.length) := by
    have parallel := fits.outer
    cases tail : handler.begun.tail with
    | nil => rfl
    | cons call rest => simp [Call.isNotCached,parallel call (by simp [tail])]
  have innermost (started : ∀ call ∈ handler.begun.head?, call.protocol = some handler.protocol) :
      handler.begun.any Call.isNotCached =
        decide (0 < handler.begun.tail.length + if handler.begun.isEmpty || handler.recognizingIoAsCached then 0 else 1) := by
    have exclusive := fits.exclusive
    cases begun : handler.begun with
    | nil => rfl
    | cons call rest =>
      have own := started call (by simp [begun])
      rw [begun,List.tail_cons] at outer
      rw [List.any_cons,outer,Call.isNotCached,own]
      cases ignores : handler.ignoringIo <;> cases caches : handler.recognizingIoAsCached <;>
        simp_all [IoHandler.protocol]
  have count := fits.inside
  cases here : handler.position with
  | outside | exiting =>
    simp only [IoHandler.headInside,here] at count
    simp only [IoHandler.isInside,here,innermost (fits.started (by simp [here])),decide_eq_true_eq,count]
  | entered | uncounted | ending =>
    simp only [IoHandler.headInside,here,Nat.add_zero] at count
    simp only [IoHandler.isInside,here,outer,decide_eq_true_eq,count]
  | counted | predicted | cached =>
    simp only [IoHandler.headInside,here] at count
    simp [IoHandler.isInside,here,count]
  | starting =>
    simp only [IoHandler.headInside,here] at count
    cases caches : handler.recognizingIoAsCached <;> simp_all [IoHandler.isInside]

/-! ## The indices -/

private theorem toNat_ofNat {n : Nat} (small : n < 4294967296) : (0 + UInt32.ofNat n).toNat = n := by
  rw [UInt32.zero_add,UInt32.toNat_ofNat']
  exact Nat.mod_eq_of_lt small

private theorem lt_max {threads : UInt32} (few : threads.toNat < 32) : threads < maxNumberOfThreadsPerformingIoInParallel :=
  UInt32.lt_iff_toNat_lt.mpr few

private theorem getThreadsInIo_lt (threadsInIo : UInt32) :
    getThreadsInIo threadsInIo < maxNumberOfThreadsPerformingIoInParallel := by
  unfold getThreadsInIo
  split_ifs with many
  · decide
  · exact UInt32.not_le.mp many

private theorem atStart_allocated {currentMethodId : Int32} (inv : Inv parameters 0 state)
    (small : state.inside.length < 4294967296) (here : (state.threads t).position = .counted)
    (fits : FitsAtStart parameters.predictor state.inside.length currentMethodId) (method : PredictionMethod)
    (found : method ∈ predictionMethodAtStart parameters.predictor state.threadsInIo (state.threads t) currentMethodId) :
    method.Allocated := by
  have inside := (inv.consistent t).inside
  simp only [IoHandler.headInside,here] at inside
  have member : t ∈ state.inside := List.count_pos_iff.mp (by omega)
  have positive := List.length_pos_of_mem member
  cases kind : parameters.predictor with
  | noIoPrediction => simp [predictionMethodAtStart,kind] at found
  | globalIoPrediction =>
    simp only [predictionMethodAtStart,kind,Option.mem_def,Option.some.injEq] at found
    subst found
    rw [kind] at fits
    have index : state.threadsInIo - 1 = 0 + UInt32.ofNat (state.inside.length - 1) := by
      rw [inv.counted,show state.inside.length = state.inside.length - 1 + 1 by omega,UInt32.ofNat_add,← UInt32.add_assoc]
      exact UInt32.add_sub_cancel _ 1
    have few : state.inside.length ≤ 32 := fits
    refine lt_max ?_
    rw [index,toNat_ofNat (by omega)]
    omega
  | stateAwareIoPrediction =>
    simp only [predictionMethodAtStart,kind,Option.mem_def,Option.some.injEq] at found
    subst found
    exact getThreadsInIo_lt _
  | operationAwareIoPrediction =>
    simp only [predictionMethodAtStart,kind,Option.mem_def,Option.some.injEq] at found
    subst found
    rw [kind] at fits
    refine ⟨lt_max ?_,fits.2⟩
    rw [inv.counted,toNat_ofNat small]
    exact fits.1

private theorem atEnd_allocated {currentMethodId : Int32} (inv : Inv parameters 0 state)
    (small : state.inside.length < 4294967296) (here : (state.threads t).position = .uncounted)
    (alone : Alone parameters.predictor (state.threads t))
    (few : parameters.predictor = .globalIoPrediction → state.inside.length < 32) (method : PredictionMethod)
    (found : method ∈ predictionMethodAtEnd parameters.predictor state.threadsInIo (state.threads t) currentMethodId) :
    method.Allocated := by
  obtain ⟨call,outer,calls,begun⟩ := begun_of_active ((inv.consistent t).active (by simp [here]))
  have predicted : (state.threads t).predicted ≠ [] := by
    rw [predicted_other (by simp [here]) (by simp [here]),begun]
    exact List.cons_ne_nil _ _
  cases kind : parameters.predictor with
  | noIoPrediction => simp [predictionMethodAtEnd,kind] at found
  | globalIoPrediction =>
    simp only [predictionMethodAtEnd,kind,Option.mem_def,Option.some.injEq] at found
    subst found
    refine lt_max ?_
    rw [inv.counted,toNat_ofNat small]
    exact few kind
  | stateAwareIoPrediction =>
    obtain ⟨cached,isCached,allocated⟩ := alone.cached predicted (.inl kind)
    simp only [predictionMethodAtEnd,kind,isCached,Option.some_or,Option.mem_def,Option.some.injEq] at found
    exact found ▸ allocated
  | operationAwareIoPrediction =>
    obtain ⟨cached,isCached,allocated⟩ := alone.cached predicted (.inr kind)
    simp only [predictionMethodAtEnd,kind,isCached,Option.some_or,Option.mem_def,Option.some.injEq] at found
    exact found ▸ allocated

/-! ## Runs -/

private structure Bounded (parameters : Parameters) (state : State Thread) : Prop where
  inv : Inv parameters 0 state
  alone : ∀ t, Alone parameters.predictor (state.threads t)
  small : state.inside.length < 4294967296

private theorem bounded_initial : Bounded parameters (initial 0 lastIoPredictionMethod) := by
  refine ⟨inv_initial,fun t => ⟨?_,?_⟩,?_⟩ <;> simp [initial,IoHandler.begun,IoHandler.predicted]

private theorem inside_length (stepped : step parameters state event = some next) :
    next.inside.length ≤ state.inside.length ∨
      ∃ t, event = .increaseThreadsInIo t ∧ next.inside.length = state.inside.length + 1 := by
  cases event with
  | increaseThreadsInIo t =>
    simp only [step,Option.ite_none_right_eq_some,Option.some.injEq] at stepped
    obtain ⟨-,rfl⟩ := stepped
    exact .inr ⟨t,rfl,rfl⟩
  | decreaseThreadsInIoOfCached t =>
    simp only [step,Option.ite_none_right_eq_some,Option.some.injEq] at stepped
    obtain ⟨-,rfl⟩ := stepped
    exact .inl List.length_erase_le
  | decreaseThreadsInIo t =>
    simp only [step,Option.ite_none_right_eq_some,Option.some.injEq] at stepped
    obtain ⟨-,rfl⟩ := stepped
    cases (state.threads t).recognizingIoAsCached with
    | true => exact .inl le_rfl
    | false => exact .inl List.length_erase_le
  | recognize t isRecognizedAsIoOperation shouldRandomlyExcludeIo =>
    simp only [step,Option.ite_none_right_eq_some,Option.some.injEq] at stepped
    obtain ⟨-,rfl⟩ := stepped
    unfold State.recognize
    dsimp only
    split_ifs <;> exact .inl le_rfl
  | onStart t =>
    simp only [step,Option.ite_none_right_eq_some,Option.some.injEq] at stepped
    obtain ⟨-,rfl⟩ := stepped
    unfold State.onStart
    dsimp only
    split_ifs <;> exact .inl le_rfl
  | addPredictionInfo t currentMethodId realTimeValueOnExit =>
    simp only [step,Option.ite_none_right_eq_some,Option.some.injEq] at stepped
    obtain ⟨-,rfl⟩ := stepped
    unfold State.addPredictionInfo
    dsimp only
    split <;> exact .inl le_rfl
  | onEnd t =>
    simp only [step,Option.ite_none_right_eq_some,Option.some.injEq] at stepped
    obtain ⟨-,rfl⟩ := stepped
    unfold State.onEnd
    dsimp only
    split_ifs <;> exact .inl le_rfl
  | enteringMethod t _ | exitingMethod t _ | afterIoMethodEntry t _ | getPredictionValue t _ | beforeIoMethodExit t =>
    simp only [step,Option.ite_none_right_eq_some,Option.some.injEq] at stepped
    obtain ⟨-,rfl⟩ := stepped
    exact .inl le_rfl

private theorem step_bounded (bounded : Bounded parameters state) (roomy : Roomy parameters.predictor state event)
    (stepped : step parameters state event = some next) : Bounded parameters next := by
  have inv := bounded.inv
  refine ⟨step_inv inv roomy.paired stepped,fun u => ?_,?_⟩
  · have alone := bounded.alone u
    cases threadStep_of_step inv roomy.paired stepped u with
    | keeps kept begun => exact alone.keeps kept (begun.trans alone.alone)
    | enters invocationPointHashValue isEntry valid kept begun =>
      rw [roomy.single u invocationPointHashValue isEntry valid] at begun
      exact alone.keeps kept (le_of_eq begun)
    | looksUp currentMethodId isLookup begun =>
      subst isLookup
      simp only [step,Option.ite_none_right_eq_some,Option.some.injEq] at stepped
      obtain ⟨here,rfl⟩ := stepped
      refine ⟨begun.trans alone.alone,fun _ kind => ?_⟩
      have allocated := atStart_allocated inv bounded.small here (roomy.starts u currentMethodId rfl)
      rcases kind with kind | kind
      · refine ⟨_,?_,allocated _ (by rw [kind]; rfl)⟩
        simp [State.getPredictionValue,State.setThread,kind,predictionMethodAtStart]
      · refine ⟨_,?_,allocated _ (by rw [kind]; rfl)⟩
        simp [State.getPredictionValue,State.setThread,kind,predictionMethodAtStart]
  · rcases inside_length stepped with fewer | ⟨t,rfl,more⟩
    · exact fewer.trans_lt bounded.small
    · rw [more]
      exact roomy.increases t rfl

private theorem headInside_le_one (handler : IoHandler) : handler.headInside ≤ 1 := by
  unfold IoHandler.headInside
  grind

private theorem bounded_inBounds (bounded : Bounded parameters state) (roomy : Roomy parameters.predictor state event)
    (accepted : (step parameters state event).isSome = true) : InBounds parameters state event := by
  obtain ⟨next,stepped⟩ := Option.isSome_iff_exists.mp accepted
  have inv := bounded.inv
  constructor
  case counts =>
    have single : state.inside.Nodup := List.nodup_iff_count_le_one.mpr fun t => by
      have count := (inv.consistent t).inside
      have alone := (bounded.alone t).alone
      have head : (state.threads t).headInside ≤ 1 := headInside_le_one _
      have tail : (state.threads t).begun.tail.length = 0 := by
        rw [List.length_tail]
        omega
      omega
    refine ⟨state.inside.toFinset,fun t => ?_,?_⟩
    · rw [List.mem_toFinset,← List.count_pos_iff,inside_iff (inv.consistent t)]
    · rw [List.toFinset_card_of_nodup single,inv.counted,toNat_ofNat bounded.small]
  case starts =>
    rintro t currentMethodId rfl
    simp only [step,Option.ite_none_right_eq_some] at stepped
    exact atStart_allocated inv bounded.small stepped.1 (roomy.starts t currentMethodId rfl)
  case ends =>
    rintro t currentMethodId realTimeValueOnExit rfl
    simp only [step,Option.ite_none_right_eq_some] at stepped
    exact atEnd_allocated inv bounded.small stepped.1 (bounded.alone t) (roomy.ends t _ _ rfl)

private def byOperation : Parameters := ⟨.operationAwareIoPrediction,true,false,true⟩

/-- Two overlapping I/O, one of them cached, and a further one of the first thread. -/
private def twoThreads : List (Event (Fin 2)) :=
  startIo 0 1 29 true false ++ startIo 1 1 3 false false ++ endIo 0 29 30 ++ startIo 0 1 2 true false ++ endIo 1 3 5

private def byThreads : Parameters := ⟨.globalIoPrediction,false,false,true⟩

/-- 33 threads are in I/O. -/
private def manyThreads : List (Event Nat) :=
  (List.range 33).flatMap fun t => [.afterIoMethodEntry t 1,.increaseThreadsInIo t]

end Vexjine.IoSimulation
