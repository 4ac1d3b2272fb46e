import Vexjine.Leaping
import Vexjine.Scans

/-!
# The scan of former threads and the order of the registry's index

The registry's index is a hash map, which may enumerate its threads in any order. The scan of
`ThreadRegistry::areAnyOtherThreadsActiveInFormerTime` returns at the first thread that gives an answer.
-/

namespace Vexjine.EnumerationOrder
open Vexjine.VirtualTimeline (longLong)
open Vexjine.Leaping (Registered ThreadRegistry Aliveness)

variable (registry : ThreadRegistry) (state : Registered) (remainingTime : Option Int)

/-- The body of the scan where the pointer to the remaining time may be `NULL`. -/
def aliveReturn (thread : Registered) : Option Aliveness :=
  match remainingTime with
  | some remainingTime => registry.aliveReturn state remainingTime thread
  | none =>
    if thread.estimatedRealTime < state.estimatedRealTime then
      if thread.isDefinitelyActive then some .atLeastOneAlive
      else if thread.isNativeWaiting then
        if registry.existsThreadThatIsSuspendedOnHigherErtThanTimeoutAndMightUnblockNativeWaitingThread state then
          some .maybeOneAlive
        else some .atLeastOneAlive
      else none
    else none

def areAnyOtherThreadsActiveInFormerTime : Aliveness :=
  if registry.threadsBeingSpawned > 0 then .atLeastOneAlive
  else if !registry.forwardLeapsAllowed then .atLeastOneAlive
  else (registry.threadStateIndex.findSome? (aliveReturn registry state remainingTime)).getD .noneAlive

/-- The decision of a leap passes the address of a remaining time. -/
theorem areAnyOtherThreadsActiveInFormerTime_some (remainingTime : Int) :
    areAnyOtherThreadsActiveInFormerTime registry state (some remainingTime) =
      registry.areAnyOtherThreadsActiveInFormerTime state remainingTime := rfl

/-! ## The law -/

/-- The registry with its threads enumerated in another order. -/
def enumerated (index : List Registered) : ThreadRegistry := { registry with threadStateIndex := index }

/-- Every enumeration of the same threads gives the same answer, which is that one is alive wherever a former thread
    is definitely active. -/
structure OrderFree : Prop where
  same : ∀ first second : List Registered, first.Perm registry.threadStateIndex →
    second.Perm registry.threadStateIndex →
    areAnyOtherThreadsActiveInFormerTime (enumerated registry first) state remainingTime =
      areAnyOtherThreadsActiveInFormerTime (enumerated registry second) state remainingTime
  active : ∀ index : List Registered, index.Perm registry.threadStateIndex → ∀ thread ∈ index,
    thread.estimatedRealTime < state.estimatedRealTime → thread.isDefinitelyActive = true →
    areAnyOtherThreadsActiveInFormerTime (enumerated registry index) state remainingTime = .atLeastOneAlive

/-- A former thread that blocks the leap: it is definitely active, or it waits natively and no suspended thread at or
    after the queried time might unblock it. -/
def Blocking (thread : Registered) : Prop :=
  thread.estimatedRealTime < state.estimatedRealTime ∧ (thread.isDefinitelyActive = true ∨ thread.isNativeWaiting = true ∧
    registry.existsThreadThatIsSuspendedOnHigherErtThanTimeoutAndMightUnblockNativeWaitingThread state = false)

/-- A former thread that leaves doubts: it is not definitely active, and waits natively while a suspended thread might
    unblock it, or otherwise is behind by less than twice the remaining time. -/
def Doubtful (thread : Registered) : Prop :=
  thread.estimatedRealTime < state.estimatedRealTime ∧ thread.isDefinitelyActive = false ∧
    if thread.isNativeWaiting then
      registry.existsThreadThatIsSuspendedOnHigherErtThanTimeoutAndMightUnblockNativeWaitingThread state = true
    else ∃ remaining ∈ remainingTime,
      longLong (state.estimatedRealTime - thread.estimatedRealTime) < longLong (remaining * 2)

/-- The scan is not reached, or no thread blocks the leap, or none leaves doubts. -/
def Unmixed : Prop :=
  registry.threadsBeingSpawned > 0 ∨ registry.forwardLeapsAllowed = false ∨
    (∀ thread ∈ registry.threadStateIndex, ¬ Blocking registry state thread) ∨
    ∀ thread ∈ registry.threadStateIndex, ¬ Doubtful registry state remainingTime thread

/-! ## The body of the scan -/

variable {registry : ThreadRegistry} {state : Registered} {remainingTime : Option Int}

private theorem aliveReturn_enumerated {index : List Registered} (permuted : index.Perm registry.threadStateIndex) :
    aliveReturn (enumerated registry index) state remainingTime = aliveReturn registry state remainingTime := by
  have exists_same :
      (enumerated registry index).existsThreadThatIsSuspendedOnHigherErtThanTimeoutAndMightUnblockNativeWaitingThread state =
      registry.existsThreadThatIsSuspendedOnHigherErtThanTimeoutAndMightUnblockNativeWaitingThread state := permuted.any_eq
  funext thread
  unfold aliveReturn ThreadRegistry.aliveReturn
  rw [exists_same]

private theorem aliveReturn_blocks_iff (thread : Registered) :
    aliveReturn registry state remainingTime thread = some .atLeastOneAlive ↔ Blocking registry state thread := by
  unfold aliveReturn ThreadRegistry.aliveReturn Blocking
  by_cases former : thread.estimatedRealTime < state.estimatedRealTime
  · cases remainingTime with
    | none =>
      simp only [former,true_and]
      split_ifs <;> simp_all
    | some remaining =>
      simp only [former,true_and]
      split_ifs <;> simp_all
  · cases remainingTime <;> simp [former]

private theorem aliveReturn_doubts_iff (thread : Registered) :
    aliveReturn registry state remainingTime thread = some .maybeOneAlive ↔
      Doubtful registry state remainingTime thread := by
  unfold aliveReturn ThreadRegistry.aliveReturn Doubtful
  by_cases former : thread.estimatedRealTime < state.estimatedRealTime
  · cases remainingTime with
    | none =>
      simp only [former,true_and]
      split_ifs <;> simp_all
    | some remaining =>
      simp only [former,true_and]
      split_ifs <;> simp_all
  · cases remainingTime <;> simp [former]

/-- There are two answers. -/
private theorem aliveReturn_answer {thread : Registered} {answer : Aliveness}
    (answers : aliveReturn registry state remainingTime thread = some answer) :
    answer = .atLeastOneAlive ∧ Blocking registry state thread ∨
      answer = .maybeOneAlive ∧ Doubtful registry state remainingTime thread := by
  cases answer with
  | atLeastOneAlive => exact .inl ⟨rfl,(aliveReturn_blocks_iff thread).mp answers⟩
  | maybeOneAlive => exact .inr ⟨rfl,(aliveReturn_doubts_iff thread).mp answers⟩
  | noneAlive =>
    unfold aliveReturn ThreadRegistry.aliveReturn at answers
    cases remainingTime <;> dsimp only at answers <;> split_ifs at answers <;> simp at answers

/-! ## The scan -/

private theorem scan_enumerated {index : List Registered} (permuted : index.Perm registry.threadStateIndex)
    (noneSpawned : ¬ registry.threadsBeingSpawned > 0) (allowed : registry.forwardLeapsAllowed = true) :
    areAnyOtherThreadsActiveInFormerTime (enumerated registry index) state remainingTime =
      (index.findSome? (aliveReturn registry state remainingTime)).getD .noneAlive := by
  have spawned_same : ¬ (enumerated registry index).threadsBeingSpawned > 0 := noneSpawned
  have allowed_same : (!(enumerated registry index).forwardLeapsAllowed) = false := by
    rw [Bool.not_eq_false']
    exact allowed
  unfold areAnyOtherThreadsActiveInFormerTime
  rw [if_neg spawned_same,allowed_same,aliveReturn_enumerated permuted]
  rfl

/-- No answer is the same as no thread alive, so that the answers differ where the scan's results do. -/
private theorem getD_inj {first second : Option Aliveness} (notFirst : first ≠ some .noneAlive)
    (notSecond : second ≠ some .noneAlive) : first.getD .noneAlive = second.getD .noneAlive ↔ first = second := by
  cases first with
  | none =>
    cases second with
    | none => simp
    | some answer => cases answer <;> simp_all
  | some one =>
    cases second with
    | none => cases one <;> simp_all
    | some other => simp

private theorem firstAnswer_ne_noneAlive (index : List Registered) :
    index.findSome? (aliveReturn registry state remainingTime) ≠ some .noneAlive := by
  intro found
  obtain ⟨thread,-,answers⟩ := List.exists_of_findSome?_eq_some found
  rcases aliveReturn_answer answers with ⟨blocks,-⟩ | ⟨doubts,-⟩
  · cases blocks
  · cases doubts

/-- All answers agree exactly if they do not mix. -/
private theorem agree_iff : (∀ one ∈ registry.threadStateIndex, ∀ other ∈ registry.threadStateIndex,
    ∀ a ∈ aliveReturn registry state remainingTime one, ∀ b ∈ aliveReturn registry state remainingTime other, a = b) ↔
    (∀ thread ∈ registry.threadStateIndex, ¬ Blocking registry state thread) ∨
      ∀ thread ∈ registry.threadStateIndex, ¬ Doubtful registry state remainingTime thread := by
  constructor
  · intro agree
    by_contra mixed
    push Not at mixed
    obtain ⟨⟨one,inOne,blocks⟩,other,inOther,doubts⟩ := mixed
    have equal := agree one inOne other inOther _ (aliveReturn_blocks_iff one |>.mpr blocks) _
      (aliveReturn_doubts_iff other |>.mpr doubts)
    cases equal
  · intro unmixed one inOne other inOther a answersA b answersB
    rw [Option.mem_def] at answersA answersB
    rcases aliveReturn_answer answersA with ⟨rfl,blocks⟩ | ⟨rfl,doubts⟩
    · rcases aliveReturn_answer answersB with ⟨rfl,-⟩ | ⟨rfl,doubts⟩
      · rfl
      · rcases unmixed with noneBlocks | noneDoubts
        · exact absurd blocks (noneBlocks one inOne)
        · exact absurd doubts (noneDoubts other inOther)
    · rcases aliveReturn_answer answersB with ⟨rfl,blocks⟩ | ⟨rfl,-⟩
      · rcases unmixed with noneBlocks | noneDoubts
        · exact absurd blocks (noneBlocks other inOther)
        · exact absurd doubts (noneDoubts one inOne)
      · rfl

/-- A definitely active former thread ends a scan whose answers do not mix. -/
private theorem scan_of_active {index : List Registered} {thread : Registered} (member : thread ∈ index)
    (active : Blocking registry state thread)
    (agree : ∀ other ∈ index, ∀ answer, aliveReturn registry state remainingTime other = some answer →
      answer = .atLeastOneAlive) :
    index.findSome? (aliveReturn registry state remainingTime) = some .atLeastOneAlive := by
  cases found : index.findSome? (aliveReturn registry state remainingTime) with
  | none =>
    rw [List.findSome?_eq_none_iff] at found
    have silent := found thread member
    rw [(aliveReturn_blocks_iff thread).mpr active] at silent
    cases silent
  | some answer =>
    obtain ⟨other,inIndex,answers⟩ := List.exists_of_findSome?_eq_some found
    rw [agree other inIndex answer answers]

private theorem unmixed_of_orderFree (free : OrderFree registry state remainingTime) :
    Unmixed registry state remainingTime := by
  by_cases noneSpawned : registry.threadsBeingSpawned > 0
  · exact .inl noneSpawned
  · by_cases allowed : registry.forwardLeapsAllowed = true
    · refine .inr (.inr (agree_iff.mp ((Scans.firstAnswer_order_free_iff _ _).mp ?_)))
      intro first second permFirst permSecond
      have same := free.same first second permFirst permSecond
      rw [scan_enumerated permFirst noneSpawned allowed,scan_enumerated permSecond noneSpawned allowed] at same
      exact (getD_inj (firstAnswer_ne_noneAlive first) (firstAnswer_ne_noneAlive second)).mp same
    · exact .inr (.inl (by simpa using allowed))

private theorem orderFree_of_agree (noneSpawned : ¬ registry.threadsBeingSpawned > 0)
    (allowed : registry.forwardLeapsAllowed = true)
    (unmixed : (∀ thread ∈ registry.threadStateIndex, ¬ Blocking registry state thread) ∨
      ∀ thread ∈ registry.threadStateIndex, ¬ Doubtful registry state remainingTime thread) :
    OrderFree registry state remainingTime := by
  constructor
  · intro first second permFirst permSecond
    rw [scan_enumerated permFirst noneSpawned allowed,scan_enumerated permSecond noneSpawned allowed,
      (Scans.firstAnswer_order_free_iff _ _).mpr (agree_iff.mpr unmixed) first second permFirst permSecond]
  · intro index permuted thread member former isActive
    have active : Blocking registry state thread := ⟨former,.inl isActive⟩
    rw [scan_enumerated permuted noneSpawned allowed,scan_of_active member active ?_]
    · rfl
    · intro other inIndex answer answers
      exact agree_iff.mpr unmixed other (permuted.mem_iff.mp inIndex) thread (permuted.mem_iff.mp member) answer answers _
        ((aliveReturn_blocks_iff thread).mpr active)

/-- The answer does not depend on how the index enumerates its threads, and reports every active former thread, exactly
    if the scan is not reached or its threads do not mix those that block the leap with those that leave doubts. -/
theorem orderFree_iff (registry : ThreadRegistry) (state : Registered) (remainingTime : Option Int) :
    OrderFree registry state remainingTime ↔ Unmixed registry state remainingTime := by
  constructor
  · exact unmixed_of_orderFree
  · intro unmixed
    by_cases noneSpawned : registry.threadsBeingSpawned > 0
    · have always (index : List Registered) :
          areAnyOtherThreadsActiveInFormerTime (enumerated registry index) state remainingTime = .atLeastOneAlive :=
        if_pos noneSpawned
      exact ⟨fun first second _ _ => (always first).trans (always second).symm,fun index _ _ _ _ _ => always index⟩
    · by_cases allowed : registry.forwardLeapsAllowed = true
      · rcases unmixed with spawned | forbidden | unmixed
        · exact absurd spawned noneSpawned
        · rw [forbidden] at allowed
          cases allowed
        · exact orderFree_of_agree noneSpawned allowed unmixed
      · have forbidden : (!registry.forwardLeapsAllowed) = true := by simpa using allowed
        have always (index : List Registered) :
            areAnyOtherThreadsActiveInFormerTime (enumerated registry index) state remainingTime = .atLeastOneAlive :=
          (if_neg noneSpawned).trans (if_pos forbidden)
        exact ⟨fun first second _ _ => (always first).trans (always second).symm,fun index _ _ _ _ _ => always index⟩

private def threadAt (currentState : Code) (estimatedRealTime : Int) : Registered where
  toVexThreadState := { VexThreadState.init 0 with currentState,timeout := -1 }
  estimatedRealTime := estimatedRealTime
  localTime := 0
  ioCPUTime := 0
  executingPossiblyBlockingIo := false
  threadSystemStateBlocked := true

/-- A thread that waits for a signal at 900 ns and one that reads a file at 600 ns, seen by one that sleeps until 1000. -/
private def waiterAndReader : ThreadRegistry where
  threadStateIndex := [threadAt .waiting 900,threadAt .learningIo 600]
  threadsBeingSpawned := 0
  forwardLeapsAllowed := true

/-- The waiter in front of the reader hides it. -/
theorem waiter_hides_reader :
    areAnyOtherThreadsActiveInFormerTime waiterAndReader (threadAt .waiting 1000) (some 500) = .maybeOneAlive ∧
    areAnyOtherThreadsActiveInFormerTime (enumerated waiterAndReader [threadAt .learningIo 600,threadAt .waiting 900])
      (threadAt .waiting 1000) (some 500) = .atLeastOneAlive ∧
    ¬ OrderFree waiterAndReader (threadAt .waiting 1000) (some 500) := by
  have hidden : areAnyOtherThreadsActiveInFormerTime waiterAndReader (threadAt .waiting 1000) (some 500) =
    .maybeOneAlive := by decide
  have seen : areAnyOtherThreadsActiveInFormerTime
    (enumerated waiterAndReader [threadAt .learningIo 600,threadAt .waiting 900]) (threadAt .waiting 1000) (some 500) =
    .atLeastOneAlive := by decide
  refine ⟨hidden,seen,?_⟩
  intro free
  have same := free.same [threadAt .waiting 900,threadAt .learningIo 600] [threadAt .learningIo 600,threadAt .waiting 900]
    (.refl _) (.swap _ _ _)
  have different : Aliveness.maybeOneAlive = .atLeastOneAlive := hidden.symm.trans (same.trans seen)
  cases different

end Vexjine.EnumerationOrder
