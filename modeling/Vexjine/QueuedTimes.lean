import Mathlib.Data.List.TakeWhile
import Vexjine.ThreadQueue

/-!
# Run times that the queue changes

The queue extends the predictions of threads in predicted I/O and puts a model thread
behind another one. The first is a recursion that pops threads as long as the top has
an expired prediction, the second a search through the array of the heap.
-/

namespace Vexjine.ThreadQueue
open Heaps
open Vexjine.VirtualTimeline (longLong LLONG_MAX)

variable {Thread : Type*} [DecidableEq Thread]

/-- A valid queue, which holds no thread twice. -/
structure RunnableQueue (Thread : Type*) extends Queue Thread where
  valid : toQueue.Valid
  nodup : threads.Nodup

/-! ## Expired predictions -/

section ExpiredPredictions
variable (algorithms : HeapAlgorithms Thread Int) (predictions : Thread → IoPrediction) (currentRealTime : Int)

def expired (thread : Thread) : Bool :=
  (predictions thread).inIoPredictionPhase && !(predictions thread).isIoPredictionStillValid currentRealTime

/-- The threads in the order in which the heap pops them. -/
def pops : Nat → Queue Thread → List Thread
  | 0, _ => []
  | count + 1, queue => match queue.threads.head? with
    | none => []
    | some thread => thread :: pops count (queue.pop algorithms)

/-- Exactly the queued threads with expired predictions are extended. -/
structure ExtendsExpired (queue : Queue Thread) (after : Queue.Invalidation Thread) : Prop where
  valid : after.queue.Valid
  perm : after.queue.threads.Perm queue.threads
  extended : ∀ thread ∈ queue.threads, expired predictions currentRealTime thread →
    after.predictions thread = (predictions thread).extendPredictionPeriod ∧
      after.queue.estimatedRealTime thread = queue.estimatedRealTime thread + (predictions thread).extension
  unchanged : ∀ thread, (thread ∈ queue.threads → ¬ expired predictions currentRealTime thread) →
    after.predictions thread = predictions thread ∧
      after.queue.estimatedRealTime thread = queue.estimatedRealTime thread

/-- Whether the prediction was ever added to the run time: its extension changes nothing otherwise. -/
def Counted (thread : Thread) : Prop := (predictions thread).timesIoPredictionWasAddedToEstimatedTime ≠ 0

/-- The prediction on top has expired, and the heap pops no other thread before one whose prediction has
    expired. -/
def PopsExpiredFirst (queue : Queue Thread) : Prop :=
  match pops algorithms (queue.threads.length + 1) queue with
  | [] => True
  | first :: later => (Counted predictions first → expired predictions currentRealTime first) ∧
    ∀ thread ∈ later.dropWhile (expired predictions currentRealTime),
      Counted predictions thread → ¬ expired predictions currentRealTime thread

end ExpiredPredictions

section Pops
variable (algorithms : HeapAlgorithms Thread Int)

theorem pop_tail {queue : Queue Thread} (valid : queue.Valid) {thread : Thread}
    {later : List Thread} (threads : queue.threads = thread :: later) : (queue.pop algorithms).threads.Perm later := by
  have perm := algorithms.popHeap_perm (Queue.valid_iff.mp valid)
  rwa [threads,List.tail_cons,← threads] at perm

/-- By induction on the fuel: each pop takes the first thread out. -/
private theorem pops_perm (fuel : Nat) : ∀ queue : Queue Thread, queue.Valid → queue.threads.length ≤ fuel →
    (pops algorithms fuel queue).Perm queue.threads := by
  induction fuel with
  | zero =>
    intro queue valid enough
    rw [List.length_eq_zero_iff.mp (Nat.le_zero.mp enough)]
    exact .refl _
  | succ fuel ih =>
    intro queue valid enough
    rw [pops]
    cases first : queue.threads.head? with
    | none =>
      rw [List.head?_eq_none_iff.mp first]
    | some thread =>
      obtain ⟨later,threads⟩ := List.head?_eq_some_iff.mp first
      have tail := pop_tail algorithms valid threads
      have rest := ih (queue.pop algorithms) (Queue.pop_valid valid) (by
        rw [tail.length_eq]
        rw [threads,List.length_cons] at enough
        omega)
      rw [threads]
      exact (rest.trans tail).cons thread

private theorem pops_subset (fuel : Nat) : ∀ queue : Queue Thread, queue.Valid →
    ∀ thread ∈ pops algorithms fuel queue, thread ∈ queue.threads := by
  induction fuel with
  | zero =>
    intro queue valid thread member
    exact absurd member List.not_mem_nil
  | succ fuel ih =>
    intro queue valid thread member
    rw [pops] at member
    split at member
    · exact absurd member List.not_mem_nil
    · next first isFirst =>
      rcases List.mem_cons.mp member with rfl | popped
      · exact List.mem_of_mem_head? isFirst
      · have tail := (algorithms.popHeap_perm (Queue.valid_iff.mp valid)).mem_iff.mp (ih _ (Queue.pop_valid valid) thread popped)
        exact List.mem_of_mem_tail tail

end Pops

namespace Queue.Invalidation
variable {algorithms : HeapAlgorithms Thread Int} {currentRealTime : Int} {before after : Invalidation Thread}

/-- Exactly the given threads are extended, once. -/
def Extends (before after : Invalidation Thread) (threads : List Thread) : Prop :=
  ∀ thread,
    after.predictions thread =
      (if thread ∈ threads then (before.predictions thread).extendPredictionPeriod else before.predictions thread) ∧
    after.queue.estimatedRealTime thread = before.queue.estimatedRealTime thread +
      if thread ∈ threads then (before.predictions thread).extension else 0

private theorem invalidateIoPrediction_extends {threads : List Thread} {thread : Thread} (absent : thread ∉ threads)
    (extended : Extends before after threads) : Extends before (after.invalidateIoPrediction thread) (thread :: threads) := by
  intro other
  obtain ⟨prediction,time⟩ := extended other
  rcases eq_or_ne other thread with rfl | different
  · rw [if_neg absent] at prediction time
    simp [invalidateIoPrediction,Queue.change,Change.apply,prediction,time]
  · simp only [invalidateIoPrediction,Queue.change,Function.update_of_ne different,List.mem_cons,different,false_or]
    exact ⟨prediction,time⟩

private theorem extends_nil (same : after.predictions = before.predictions)
    (times : after.queue.estimatedRealTime = before.queue.estimatedRealTime) : Extends before after [] := by
  intro thread
  simp [same,times]

/-- By induction on the fuel, along the order in which the heap pops the threads: no run time has changed
    before the last one is popped. -/
private theorem recursivelyUpdate_extends (fuel : Nat) :
    ∀ (thread : Thread) (before : Invalidation Thread), Queue.Sound before → thread ∉ before.queue.threads →
      Extends before (before.recursivelyUpdatePendingIoRequests algorithms currentRealTime fuel thread)
        (thread :: (pops algorithms fuel before.queue).takeWhile (expired before.predictions currentRealTime)) := by
  induction fuel with
  | zero =>
    intro thread before sound absent
    exact invalidateIoPrediction_extends List.not_mem_nil (extends_nil rfl rfl)
  | succ fuel ih =>
    intro thread before sound absent
    rw [recursivelyUpdatePendingIoRequests,pops]
    cases first : before.queue.threads.head? with
    | none => exact invalidateIoPrediction_extends List.not_mem_nil (extends_nil rfl rfl)
    | some next =>
      obtain ⟨later,threads⟩ := List.head?_eq_some_iff.mp first
      simp only []
      split
      · next passed =>
        have isExpired : expired before.predictions currentRealTime next = true := passed
        have popped : Queue.Sound (before.top.pop algorithms) := Queue.pop_sound (Queue.top_sound sound)
        have tail : (before.top.pop algorithms).queue.threads.Perm later := pop_tail algorithms sound.valid threads
        have outside : next ∉ (before.top.pop algorithms).queue.threads := by
          rw [tail.mem_iff]
          exact (List.nodup_cons.mp (threads ▸ sound.nodup)).1
        have inner := ih next _ popped outside
        have same : (pops algorithms fuel (before.queue.pop algorithms)).takeWhile (expired before.predictions currentRealTime) =
            (pops algorithms fuel (before.top.pop algorithms).queue).takeWhile
              (expired (before.top.pop algorithms).predictions currentRealTime) := rfl
        rw [List.takeWhile_cons_of_pos isExpired,same]
        refine invalidateIoPrediction_extends ?_ inner
        intro member
        rcases List.mem_cons.mp member with rfl | deeper
        · exact absent (List.mem_of_mem_head? first)
        · have queued := pops_subset algorithms fuel _ popped.valid thread (List.takeWhile_sublist _ |>.subset deeper)
          rw [tail.mem_iff] at queued
          exact absent (threads ▸ List.mem_cons_of_mem _ queued)
      · next passed =>
        have stays : ¬ expired before.predictions currentRealTime next = true := passed
        rw [List.takeWhile_cons_of_neg stays]
        exact invalidateIoPrediction_extends List.not_mem_nil (extends_nil rfl rfl)

/-- By induction on the fuel: once all threads are popped, more fuel changes nothing. -/
private theorem recursivelyUpdate_fuel (fuel : Nat) :
    ∀ (more : Nat) (thread : Thread) (before : Invalidation Thread), before.queue.Valid →
      before.queue.threads.length ≤ fuel → fuel ≤ more →
      before.recursivelyUpdatePendingIoRequests algorithms currentRealTime more thread =
        before.recursivelyUpdatePendingIoRequests algorithms currentRealTime fuel thread := by
  induction fuel with
  | zero =>
    intro more thread before valid enough most
    have empty : before.queue.threads = [] := List.length_eq_zero_iff.mp (Nat.le_zero.mp enough)
    cases more with
    | zero => rfl
    | succ more =>
      have nothing : before.queue.threads.head? = none := by rw [empty,List.head?_nil]
      simp only [recursivelyUpdatePendingIoRequests,nothing]
  | succ fuel ih =>
    intro more thread before valid enough most
    obtain ⟨more,rfl⟩ := Nat.exists_eq_succ_of_ne_zero (show more ≠ 0 by omega)
    rw [Nat.succ_eq_add_one,recursivelyUpdatePendingIoRequests,recursivelyUpdatePendingIoRequests]
    cases first : before.queue.threads.head? with
    | none => rfl
    | some next =>
      obtain ⟨later,threads⟩ := List.head?_eq_some_iff.mp first
      have tail := pop_tail algorithms valid threads
      have inner := ih more next (before.top.pop algorithms) (Queue.pop_valid valid) (by
        rw [threads,List.length_cons] at enough
        exact tail.length_eq ▸ (by omega)) (by omega)
      simp only [inner]

end Queue.Invalidation

/-! ## What is extended -/

section ExpiredPredictionsExtended

/-- The threads that are extended: the first without a test, then the expired ones that come next. -/
private def extendedThreads (algorithms : HeapAlgorithms Thread Int) (predictions : Thread → IoPrediction)
    (currentRealTime : Int) (queue : Queue Thread) : List Thread :=
  match pops algorithms (queue.threads.length + 1) queue with
  | [] => []
  | first :: later => first :: later.takeWhile (expired predictions currentRealTime)

private theorem invalidateExpired_extends (algorithms : HeapAlgorithms Thread Int) (predictions : Thread → IoPrediction)
    (currentRealTime : Int) (queue : RunnableQueue Thread) :
    Queue.Invalidation.Extends ⟨queue.toQueue,predictions,[]⟩
        (queue.invalidateExpiredIoPredictions algorithms predictions currentRealTime)
        (extendedThreads algorithms predictions currentRealTime queue.toQueue) ∧
      (queue.invalidateExpiredIoPredictions algorithms predictions currentRealTime).queue.threads.Perm queue.threads := by
  have sound : Queue.Sound ⟨queue.toQueue,predictions,[]⟩ := ⟨queue.valid,queue.nodup,by simp⟩
  rw [Queue.invalidateExpiredIoPredictions,extendedThreads,pops]
  cases first : queue.threads.head? with
  | none => exact ⟨Queue.Invalidation.extends_nil rfl rfl,.refl _⟩
  | some thread =>
    obtain ⟨later,threads⟩ := List.head?_eq_some_iff.mp first
    have tail := pop_tail algorithms queue.valid threads
    have popped : Queue.Sound ((Queue.Invalidation.top ⟨queue.toQueue,predictions,[]⟩).pop algorithms) :=
      Queue.pop_sound (Queue.top_sound sound)
    have outside : thread ∉ ((Queue.Invalidation.top ⟨queue.toQueue,predictions,[]⟩).pop algorithms).queue.threads := by
      intro queued
      exact (List.nodup_cons.mp (threads ▸ queue.nodup)).1 (tail.mem_iff.mp queued)
    obtain ⟨inner,perm⟩ := @Queue.recursivelyUpdate_sound _ _ algorithms currentRealTime queue.threads.length
      thread _ popped outside
    refine ⟨Queue.Invalidation.recursivelyUpdate_extends queue.threads.length thread _ popped outside,?_⟩
    have pushed := @Queue.push_perm _ _ algorithms _ inner thread
    have restored := pushed.trans ((perm.trans tail).cons thread)
    rw [← threads] at restored
    exact restored

private theorem extendPredictionPeriod_fixed {prediction : IoPrediction} (fixed : prediction.extendPredictionPeriod = prediction) :
    prediction.timesIoPredictionWasAddedToEstimatedTime = 0 := by
  have doubled := congrArg IoPrediction.timesIoPredictionWasAddedToEstimatedTime fixed
  simp only [IoPrediction.extendPredictionPeriod] at doubled
  have values := congrArg UInt64.toNat doubled
  have small := UInt64.toNat_lt prediction.timesIoPredictionWasAddedToEstimatedTime
  simp only [UInt64.toNat_mul,UInt64.reduceToNat] at values
  apply UInt64.toNat_inj.mp
  rw [UInt64.toNat_zero]
  omega

private theorem extendPredictionPeriod_of_uncounted {prediction : IoPrediction}
    (uncounted : prediction.timesIoPredictionWasAddedToEstimatedTime = 0) :
    prediction.extendPredictionPeriod = prediction ∧ prediction.extension = 0 := by
  obtain ⟨inIoPredictionPhase,lastRealTime,lastIoPrediction,times⟩ := prediction
  simp only at uncounted
  subst uncounted
  exact ⟨rfl,by simp [IoPrediction.extension,IoPrediction.extendPredictionPeriod]⟩

/-- An extension shows only where the prediction was counted. -/
private theorem extendsExpired_iff {predictions : Thread → IoPrediction} {currentRealTime : Int} {queue : Queue Thread}
    {after : Queue.Invalidation Thread} {threads : List Thread} (valid : after.queue.Valid)
    (perm : after.queue.threads.Perm queue.threads)
    (extended : Queue.Invalidation.Extends ⟨queue,predictions,[]⟩ after threads) :
    ExtendsExpired predictions currentRealTime queue after ↔ ∀ thread, Counted predictions thread →
      (thread ∈ threads ↔ thread ∈ queue.threads ∧ expired predictions currentRealTime thread) := by
  constructor
  · intro exactly thread counted
    have prediction := (extended thread).1
    constructor
    · intro member
      by_contra stays
      have same := (exactly.unchanged thread fun queued isExpired => stays ⟨queued,isExpired⟩).1
      rw [if_pos member,same] at prediction
      exact counted (extendPredictionPeriod_fixed prediction.symm)
    · rintro ⟨queued,isExpired⟩
      by_contra missed
      have same := (exactly.extended thread queued isExpired).1
      rw [if_neg missed,same] at prediction
      exact counted (extendPredictionPeriod_fixed prediction)
  · intro exactly
    refine ⟨valid,perm,fun thread queued isExpired => ?_,fun thread stays => ?_⟩
    · obtain ⟨prediction,time⟩ := extended thread
      by_cases member : thread ∈ threads
      · rw [if_pos member] at prediction time
        exact ⟨prediction,time⟩
      · have uncounted := not_not.mp fun counted => member ((exactly thread counted).mpr ⟨queued,isExpired⟩)
        obtain ⟨same,nothing⟩ := extendPredictionPeriod_of_uncounted uncounted
        rw [if_neg member] at prediction time
        rw [same,nothing]
        exact ⟨prediction,time⟩
    · obtain ⟨prediction,time⟩ := extended thread
      by_cases member : thread ∈ threads
      · have uncounted := not_not.mp fun counted =>
          stays ((exactly thread counted).mp member).1 ((exactly thread counted).mp member).2
        obtain ⟨same,nothing⟩ := extendPredictionPeriod_of_uncounted uncounted
        rw [if_pos member,same] at prediction
        rw [if_pos member,nothing] at time
        exact ⟨prediction,time.trans (add_zero _)⟩
      · rw [if_neg member] at prediction time
        exact ⟨prediction,time.trans (add_zero _)⟩

private theorem popsExpiredFirst_iff (algorithms : HeapAlgorithms Thread Int) (predictions : Thread → IoPrediction)
    (currentRealTime : Int) (queue : RunnableQueue Thread) :
    PopsExpiredFirst algorithms predictions currentRealTime queue.toQueue ↔ ∀ thread, Counted predictions thread →
      (thread ∈ extendedThreads algorithms predictions currentRealTime queue.toQueue ↔
        thread ∈ queue.threads ∧ expired predictions currentRealTime thread) := by
  have order := pops_perm algorithms (queue.threads.length + 1) queue.toQueue queue.valid (by omega)
  have distinct := order.nodup_iff.mpr queue.nodup
  have queuedIff := fun thread : Thread => (@List.Perm.mem_iff _ thread _ _ order).symm
  rw [PopsExpiredFirst,extendedThreads]
  simp only [queuedIff]
  cases popped : pops algorithms (queue.threads.length + 1) queue.toQueue with
  | nil => simp
  | cons first later =>
    rw [popped] at distinct
    obtain ⟨firstAbsent,laterDistinct⟩ := List.nodup_cons.mp distinct
    have split := @List.takeWhile_append_dropWhile _ (expired predictions currentRealTime) later
    constructor
    · rintro ⟨firstExpired,noneMissed⟩ thread counted
      constructor
      · intro member
        rcases List.mem_cons.mp member with rfl | taken
        · exact ⟨List.mem_cons_self,firstExpired counted⟩
        · exact ⟨List.mem_cons_of_mem _ ((List.takeWhile_sublist _).subset taken),List.mem_takeWhile_imp taken⟩
      · rintro ⟨queued,isExpired⟩
        rcases List.mem_cons.mp queued with rfl | inLater
        · exact List.mem_cons_self
        · rw [← split,List.mem_append] at inLater
          exact List.mem_cons_of_mem _ (inLater.resolve_right fun missed => noneMissed thread missed counted isExpired)
    · intro exactly
      refine ⟨fun counted => ((exactly first counted).mp List.mem_cons_self).2,fun thread missed counted isExpired => ?_⟩
      have inLater : thread ∈ later := (List.dropWhile_sublist _).subset missed
      rcases List.mem_cons.mp ((exactly thread counted).mpr ⟨List.mem_cons_of_mem _ inLater,isExpired⟩) with rfl | taken
      · exact firstAbsent inLater
      · exact (List.nodup_append.mp (split.symm ▸ laterDistinct)).2.2 thread taken thread missed rfl

/-- The recursion ends when all threads are popped, and extends exactly the expired predictions if and only if
    the one on top has expired and the heap pops no other thread before one whose prediction has expired. -/
theorem invalidateExpiredIoPredictions_iff (algorithms : HeapAlgorithms Thread Int) (predictions : Thread → IoPrediction)
    (currentRealTime : Int) (queue : RunnableQueue Thread) :
    (∀ fuel ≥ queue.threads.length, ∀ thread, Queue.Invalidation.recursivelyUpdatePendingIoRequests algorithms currentRealTime
        fuel thread ⟨queue.toQueue,predictions,[]⟩ =
      Queue.Invalidation.recursivelyUpdatePendingIoRequests algorithms currentRealTime queue.threads.length thread
        ⟨queue.toQueue,predictions,[]⟩) ∧
    (ExtendsExpired predictions currentRealTime queue.toQueue
        (queue.invalidateExpiredIoPredictions algorithms predictions currentRealTime) ↔
      PopsExpiredFirst algorithms predictions currentRealTime queue.toQueue) := by
  refine ⟨fun fuel enough thread =>
    Queue.Invalidation.recursivelyUpdate_fuel queue.threads.length fuel thread _ queue.valid le_rfl enough,?_⟩
  obtain ⟨extended,perm⟩ := invalidateExpired_extends algorithms predictions currentRealTime queue
  have valid := (@Queue.invalidateExpired_sound _ _ algorithms _ queue.valid queue.nodup predictions currentRealTime).valid
  exact (extendsExpired_iff valid perm extended).trans
    (popsExpiredFirst_iff algorithms predictions currentRealTime queue).symm

/-- Threads 0 and 2 are in predicted I/O that should have ended; thread 1, between them, is suspended. -/
private def betweenExpired : RunnableQueue Nat where
  threads := [0,1,2]
  estimatedRealTime := fun thread => thread
  valid := topLeast_of_isHeap (isHeap_of_pairwise (by simp))
  nodup := by decide

private def expiredAround (thread : Nat) : IoPrediction := ⟨decide (thread ≠ 1),0,5,1⟩

/-- The suspended thread hides the second expired prediction. -/
theorem hidden_prediction_not_extended : ¬ ∀ (algorithms : HeapAlgorithms Nat Int) (predictions : Nat → IoPrediction)
    (currentRealTime : Int) (queue : RunnableQueue Nat), ExtendsExpired predictions currentRealTime queue.toQueue
      (queue.invalidateExpiredIoPredictions algorithms predictions currentRealTime) := by
  intro claimed
  have extended := ((claimed .ascending expiredAround 10 betweenExpired).extended 2 (by decide) (by decide)).2
  exact absurd extended (by decide)

end ExpiredPredictionsExtended

/-! ## Putting a thread behind another -/

section NextBiggest
variable (queue : Queue Thread) (thread : Thread) (skipped : Thread → Bool)

/-- The run times that are not before the thread's among the other threads that are not skipped. -/
def laterTimes : Set Int :=
  { time | ∃ other ∈ queue.threads, other ≠ thread ∧ skipped other = false ∧
      queue.estimatedRealTime thread ≤ queue.estimatedRealTime other ∧ queue.estimatedRealTime other = time }

/-- The thread is put behind the next one in time, and nothing else changes. -/
structure PutBehindNext (after : Queue Thread) : Prop where
  valid : after.Valid
  perm : after.threads.Perm queue.threads
  behind : ∀ time, IsLeast (laterTimes queue thread skipped) time → after.estimatedRealTime thread = time + 1
  others : ∀ other ≠ thread, after.estimatedRealTime other = queue.estimatedRealTime other

/-- The run times are `long long` values. -/
def LongLongTimes : Prop := ∀ other, -2 ^ 63 ≤ queue.estimatedRealTime other ∧ queue.estimatedRealTime other ≤ LLONG_MAX

/-- The thread that comes next in the array of the heap, of those that are not skipped, or the last one if
    none comes, is next in time. -/
def NextInArrayAt (time : Int) : Prop :=
  ∀ before after, thread ∉ before → queue.threads = before ++ thread :: after →
    (∀ passed next rest, after = passed ++ next :: rest → (∀ other ∈ passed, skipped other = true) →
      skipped next = false → queue.estimatedRealTime next = time) ∧
    ((∀ other ∈ after, skipped other = true) → ∀ last ∈ queue.threads.getLast?, queue.estimatedRealTime last = time)

/-- If some thread is next in time, then it is at a time before the largest one and next in the array. -/
def NextInArrayIsNextInTime : Prop :=
  ∀ time, IsLeast (laterTimes queue thread skipped) time → time < LLONG_MAX ∧ NextInArrayAt queue thread skipped time

section Search
variable {queue thread skipped}

private theorem dropWhile_of_split {before after : List Thread} (absent : thread ∉ before) :
    (before ++ thread :: after).dropWhile (fun other => other ≠ thread) = thread :: after := by
  induction before with
  | nil => simp
  | cons first before ih =>
    rw [List.mem_cons,not_or] at absent
    rw [List.cons_append,List.dropWhile_cons_of_pos (by simpa using Ne.symm absent.1)]
    exact ih absent.2

private theorem nextBiggest_of_split {before after : List Thread} (absent : thread ∉ before)
    (split : queue.threads = before ++ thread :: after) :
    queue.nextBiggest thread skipped = (after.dropWhile skipped).head?.or queue.threads.getLast? := by
  have queued : thread ∈ queue.threads := by simp [split]
  rw [Queue.nextBiggest,if_pos queued,split,dropWhile_of_split absent,List.tail_cons]

/-- By cases on whether some thread behind is not skipped. -/
private theorem nextInArray_iff {next : Thread} (queued : thread ∈ queue.threads)
    (chosen : queue.nextBiggest thread skipped = some next) :
    NextInArrayIsNextInTime queue thread skipped ↔
      ∀ time, IsLeast (laterTimes queue thread skipped) time → time < LLONG_MAX ∧ queue.estimatedRealTime next = time := by
  refine forall₂_congr fun time least => and_congr_right fun _ => ?_
  constructor
  · intro inArray
    obtain ⟨before,after,split,absent⟩ := List.eq_append_cons_of_mem queued
    obtain ⟨found,none⟩ := inArray before after absent split
    rw [nextBiggest_of_split absent split] at chosen
    cases behind : after.dropWhile skipped with
    | nil =>
      rw [behind,List.head?_nil,Option.none_or] at chosen
      exact none (List.dropWhile_eq_nil_iff.mp behind) next chosen
    | cons first rest =>
      rw [behind,List.head?_cons,Option.some_or,Option.some.injEq] at chosen
      subst chosen
      have joined := @List.takeWhile_append_dropWhile _ skipped after
      rw [behind] at joined
      have stays := List.head?_dropWhile_not skipped after
      rw [behind,List.head?_cons] at stays
      exact found _ first rest joined.symm (fun other taken => List.mem_takeWhile_imp taken) (by simpa using stays)
  · intro isNext before after absent split
    rw [nextBiggest_of_split absent split] at chosen
    refine ⟨fun passed later rest behind allSkipped stays => ?_,fun allSkipped last isLast => ?_⟩
    · have dropped : after.dropWhile skipped = later :: rest := by
        rw [behind,List.dropWhile_append_of_pos allSkipped,List.dropWhile_cons_of_neg (by simp [stays])]
      rw [dropped,List.head?_cons,Option.some_or,Option.some.injEq] at chosen
      rw [chosen]
      exact isNext
    · rw [List.dropWhile_eq_nil_iff.mpr allSkipped,List.head?_nil,Option.none_or,Option.mem_def.mp isLast,
        Option.some.injEq] at chosen
      rw [chosen]
      exact isNext

private theorem nextBiggest_isSome (skipped : Thread → Bool) (queued : thread ∈ queue.threads) :
    ∃ next, queue.nextBiggest thread skipped = some next := by
  obtain ⟨before,after,split,absent⟩ := List.eq_append_cons_of_mem queued
  rw [nextBiggest_of_split absent split]
  cases (after.dropWhile skipped).head? with
  | some next => exact ⟨next,rfl⟩
  | none =>
    rw [Option.none_or]
    exact ⟨_,List.getLast?_eq_some_getLast (List.ne_nil_of_mem queued)⟩

/-- The queue puts the thread behind the next one in time exactly when the heap's array has that thread next,
    before the largest time. -/
theorem setThreadToNextBiggestErt_iff (algorithms : HeapAlgorithms Thread Int) (queued : thread ∈ queue.threads)
    (times : LongLongTimes queue) :
    PutBehindNext queue thread skipped (queue.setThreadToNextBiggestErt algorithms thread skipped) ↔
      NextInArrayIsNextInTime queue thread skipped := by
  obtain ⟨next,chosen⟩ := nextBiggest_isSome skipped queued
  rw [nextInArray_iff queued chosen,Queue.setThreadToNextBiggestErt,chosen]
  have moved : ∀ time, IsLeast (laterTimes queue thread skipped) time →
      (max (queue.estimatedRealTime thread) (longLong (queue.estimatedRealTime next + 1)) = time + 1 ↔
        time < LLONG_MAX ∧ queue.estimatedRealTime next = time) := by
    intro time least
    obtain ⟨other,-,-,-,notBefore,is⟩ := least.1
    have own := times thread
    have ofOther := times other
    have ofNext := times next
    unfold longLong LLONG_MAX at *
    rw [Int.bmod_def]
    omega
  constructor
  · intro put time least
    have time' := put.behind time least
    simp only [Queue.update,Queue.change,Change.apply,Function.update_self] at time'
    exact (moved time least).mp time'
  · intro isNext
    refine ⟨Queue.update_valid _,algorithms.makeHeap_perm _ _,fun time least => ?_,fun other different => ?_⟩
    · simp only [Queue.update,Queue.change,Change.apply,Function.update_self]
      exact (moved time least).mpr (isNext time least)
    · simp only [Queue.update,Queue.change,Function.update_of_ne different]

end Search

/-- Thread 0 is on top; of the threads behind it in the heap's array, the second is next in time. -/
private def unsortedHeap : Queue Nat := ⟨[0,1,2],fun thread => if thread = 0 then 0 else if thread = 1 then 20 else 10⟩

/-- Thread 1 waits until the largest time. -/
private def longWait : Queue Nat := ⟨[0,1],fun thread => if thread = 1 then LLONG_MAX else 5⟩

/-- Thread 0 is put behind thread 1, past thread 2; and it is not put behind a thread at the largest time. -/
theorem later_child_chosen : (¬ ∀ (algorithms : HeapAlgorithms Nat Int) (queue : Queue Nat) (thread : Nat)
      (skipped : Nat → Bool), LongLongTimes queue → queue.Valid → thread ∈ queue.threads →
      PutBehindNext queue thread skipped (queue.setThreadToNextBiggestErt algorithms thread skipped)) ∧
    (longWait.setThreadToNextBiggestErt .ascending 0 fun _ => false).estimatedRealTime 0 = 5 := by
  refine ⟨fun claimed => ?_,by decide⟩
  have heap : IsHeap unsortedHeap.estimatedRealTime unsortedHeap.threads := by
    intro index parent child parentFound childFound
    match index with
    | 0 =>
      cases parentFound
      rcases childFound with found | found <;>
      · cases found
        decide
    | index + 1 =>
      have outside : ∀ position, 3 ≤ position → unsortedHeap.threads[position]? = none := fun position far =>
        List.getElem?_eq_none far
      rw [outside _ (by omega),outside _ (by omega)] at childFound
      exact absurd childFound (by simp)
  have times : LongLongTimes unsortedHeap := by
    intro other
    simp only [unsortedHeap]
    split_ifs <;> decide
  have put := claimed .ascending unsortedHeap 0 (fun _ => false) times (topLeast_of_isHeap heap) (by decide)
  have least : IsLeast (laterTimes unsortedHeap 0 fun _ => false) 10 := by
    refine ⟨⟨2,by decide,by decide,rfl,by decide,by decide⟩,?_⟩
    rintro time ⟨other,queued,different,-,-,rfl⟩
    have either : other = 0 ∨ other = 1 ∨ other = 2 := by simpa [unsortedHeap] using queued
    rcases either with rfl | rfl | rfl
    · exact absurd rfl different
    · decide
    · decide
  exact absurd (put.behind 10 least) (by decide)

/-- Thread 0 before thread 1, which runs 10 ns later. -/
private def sortedHeap : Queue Nat := ⟨[0,1],fun thread => if thread = 1 then 10 else 0⟩

theorem sorted_heap_put : 0 ∈ sortedHeap.threads ∧ LongLongTimes sortedHeap ∧
    (PutBehindNext sortedHeap 0 (fun _ => false) (sortedHeap.setThreadToNextBiggestErt .ascending 0 fun _ => false) ↔
      NextInArrayIsNextInTime sortedHeap 0 fun _ => false) := by
  have times : LongLongTimes sortedHeap := by
    intro other
    simp only [sortedHeap]
    split_ifs <;> decide
  exact ⟨by decide,times,setThreadToNextBiggestErt_iff .ascending (by decide) times⟩

end NextBiggest

end Vexjine.ThreadQueue
