import Vexjine.Rearrangements

/-!
# The sort of the median

The quicksort behind the prediction by the median, on a memory in which a range is sorted in place. Each run
comes with its actions: the calls that it makes, and the elements that each of them reads or writes.
-/

namespace Vexjine.MedianSort
open Rearrangements

variable {Value : Type*} [LinearOrder Value]

/-- A call with the `N` elements from `base` on, or an access of such a call, by the index in its range. -/
inductive Action (Value : Type*) where
  | call (data : ℤ → Value) (base N : ℤ)
  | access (base N index : ℤ)

namespace MedianCyclicBuffer

section Scans

variable (data : ℤ → Value) (base N : ℤ) (v : Value)

/-- `while(data[++i] < v && i < N)`; none when it does not end within the given number of tests. -/
def scanUp : ℕ → ℤ → Option (ℤ × List (Action Value))
  | 0, _ => none
  | tests + 1, i =>
    if data (base + (i + 1)) < v ∧ i + 1 < N
    then (scanUp tests (i + 1)).map fun scan => (scan.1,.access base N (i + 1) :: scan.2)
    else some (i + 1,[.access base N (i + 1)])

/-- `while(data[--j] > v)`. -/
def scanDown : ℕ → ℤ → Option (ℤ × List (Action Value))
  | 0, _ => none
  | tests + 1, j =>
    if v < data (base + (j - 1))
    then (scanDown tests (j - 1)).map fun scan => (scan.1,.access base N (j - 1) :: scan.2)
    else some (j - 1,[.access base N (j - 1)])

end Scans

/-- The loop `for(;;)`, up to its `break`. -/
def partition (base N : ℤ) (v : Value) : ℕ → (ℤ → Value) → ℤ → ℤ → Option ((ℤ → Value) × ℤ × List (Action Value))
  | 0, _, _, _ => none
  | rounds + 1, data, i, j => do
    let (i,up) ← scanUp data base N v rounds i
    let (j,down) ← scanDown data base N v rounds j
    if j ≤ i then some (data,i,up ++ down)
    else
      let (after,last,more) ← partition base N v rounds (swapped data (base + i) (base + j)) i j
      some (after,last,up ++ down ++ [.access base N i,.access base N j] ++ more)

/-- `sort(data + base, N)`: what the memory holds afterwards, and the actions. -/
def sort : ℕ → (ℤ → Value) → ℤ → ℤ → Option ((ℤ → Value) × List (Action Value))
  | 0, _, _, _ => none
  | depth + 1, data, base, N =>
    if N ≤ 1 then some (data,[.call data base N])
    else do
      let (parted,i,scans) ← partition base N (data base) depth data 0 N
      let (left,leftActions) ← sort depth (swapped parted (base + (i - 1)) base) base (i - 1)
      let (right,rightActions) ← sort depth left (base + i) (N - i)
      some (right,.call data base N :: .access base N 0 :: scans ++
        [.access base N (i - 1),.access base N 0] ++ leftActions ++ rightActions)

end MedianCyclicBuffer

open MedianCyclicBuffer

/-- What the memory holds after a sort of its first elements. -/
def sorted (data : ℤ → Value) (N : ℤ) : ℤ → Value :=
  ((sort ((2 * N + 2).toNat + 1) data 0 N).map Prod.fst).getD data

/-- The call reads and writes its own range only. -/
def Action.Inside : Action Value → Prop
  | .call .. => True
  | .access _ N index => 0 ≤ index ∧ index < N

/-- The first element of the range that is given to the call is not greater than all others. -/
def Action.Bounded : Action Value → Prop
  | .call data base N => 1 < N → ∃ k, 0 < k ∧ k < N ∧ data base ≤ data (base + k)
  | .access .. => True

/-- What a memory holds after the sort, and what the sort did: the sort gives it with every depth that is large
    enough. -/
def Sorts (data : ℤ → Value) (base N : ℤ) (after : ℤ → Value) (actions : List (Action Value)) : Prop :=
  ∃ enough, ∀ depth ≥ enough, sort depth data base N = some (after,actions)

/-- The sort ends, stays inside the ranges it was given, and leaves the values in order. -/
def Lawful (data : ℤ → Value) (base N : ℤ) : Prop :=
  ∃ after actions, Sorts data base N after actions ∧ (∀ action ∈ actions, action.Inside) ∧
    (values after base (base + N)).Pairwise (· ≤ ·) ∧
    (values after base (base + N)).Perm (values data base (base + N)) ∧
    ∀ k, ¬ (base ≤ k ∧ k < base + N) → after k = data k

/-! ## The scans -/

section Scans

variable {data : ℤ → Value} {base N : ℤ} {v : Value}

private theorem scanUp_spec (count : ℕ) : ∀ i, i < N → N - i ≤ count →
    ∃ last actions, (∀ tests : ℕ, N - i ≤ tests → scanUp data base N v tests i = some (last,actions)) ∧
      i < last ∧ last ≤ N ∧
      (∀ k, i < k → k < last → data (base + k) < v) ∧ (last < N → v ≤ data (base + last)) ∧
      .access base N last ∈ actions ∧
      ∀ action ∈ actions, ∃ index, action = .access base N index ∧ i < index ∧ index ≤ last := by
  induction count with
  | zero => intro i before enough; omega
  | succ count ih =>
    intro i before enough
    by_cases test : data (base + (i + 1)) < v ∧ i + 1 < N
    · obtain ⟨last,actions,scanned,later,le,smaller,stop,reached,inside⟩ := ih (i + 1) test.2 (by omega)
      refine ⟨last,.access base N (i + 1) :: actions,fun tests many => ?_,by omega,le,fun k above below => ?_,stop,
        List.mem_cons_of_mem _ reached,fun action member => ?_⟩
      · obtain ⟨tests,rfl⟩ := Nat.exists_eq_succ_of_ne_zero (show tests ≠ 0 by omega)
        rw [scanUp,if_pos test,scanned tests (by omega),Option.map_some]
      · rcases eq_or_ne k (i + 1) with rfl | different
        exacts [test.1,smaller k (by omega) below]
      · rcases List.mem_cons.mp member with rfl | rest
        · exact ⟨i + 1,rfl,by omega,by omega⟩
        · obtain ⟨index,same,above,below⟩ := inside action rest
          exact ⟨index,same,by omega,below⟩
    · refine ⟨i + 1,[.access base N (i + 1)],fun tests many => ?_,by omega,by omega,fun k above below => by omega,
        fun more => ?_,List.mem_singleton_self _,fun action member => ?_⟩
      · obtain ⟨tests,rfl⟩ := Nat.exists_eq_succ_of_ne_zero (show tests ≠ 0 by omega)
        rw [scanUp,if_neg test]
      · exact not_lt.mp fun less => test ⟨less,more⟩
      · exact ⟨i + 1,List.mem_singleton.mp member,by omega,le_rfl⟩

private theorem scanDown_spec {stop : ℤ} (bounded : data (base + stop) ≤ v) (count : ℕ) :
    ∀ j, stop < j → j - stop ≤ count →
    ∃ last actions, (∀ tests : ℕ, j - stop ≤ tests → scanDown data base N v tests j = some (last,actions)) ∧
      stop ≤ last ∧ last < j ∧
      (∀ k, last < k → k < j → v < data (base + k)) ∧ data (base + last) ≤ v ∧
      ∀ action ∈ actions, ∃ index, action = .access base N index ∧ last ≤ index ∧ index < j := by
  induction count with
  | zero => intro j above enough; omega
  | succ count ih =>
    intro j above enough
    by_cases test : v < data (base + (j - 1))
    · have more : stop < j - 1 := by
        have different : stop ≠ j - 1 := by
          rintro rfl
          exact test.not_ge bounded
        omega
      obtain ⟨last,actions,scanned,le,earlier,greater,low,inside⟩ := ih (j - 1) more (by omega)
      refine ⟨last,.access base N (j - 1) :: actions,fun tests many => ?_,le,by omega,fun k lower upper => ?_,low,
        fun action member => ?_⟩
      · obtain ⟨tests,rfl⟩ := Nat.exists_eq_succ_of_ne_zero (show tests ≠ 0 by omega)
        rw [scanDown,if_pos test,scanned tests (by omega),Option.map_some]
      · rcases eq_or_ne k (j - 1) with rfl | different
        exacts [test,greater k lower (by omega)]
      · rcases List.mem_cons.mp member with rfl | rest
        · exact ⟨j - 1,rfl,by omega,by omega⟩
        · obtain ⟨index,same,lower,upper⟩ := inside action rest
          exact ⟨index,same,lower,by omega⟩
    · refine ⟨j - 1,[.access base N (j - 1)],fun tests many => ?_,by omega,by omega,fun k lower upper => by omega,
        not_lt.mp test,fun action member => ?_⟩
      · obtain ⟨tests,rfl⟩ := Nat.exists_eq_succ_of_ne_zero (show tests ≠ 0 by omega)
        rw [scanDown,if_neg test]
      · exact ⟨j - 1,List.mem_singleton.mp member,le_rfl,by omega⟩

end Scans

/-! ## The partition -/

/-- What holds at the head of the loop: the ends of the range are sorted out by the pivot. -/
private structure Parting (data : ℤ → Value) (base N : ℤ) (v : Value) (i j : ℤ) : Prop where
  nonneg : 0 ≤ i
  apart : i < j
  le : j ≤ N
  low : ∀ k, 0 ≤ k → k ≤ i → data (base + k) ≤ v
  high : ∀ k, j ≤ k → k < N → v ≤ data (base + k)

/-- What holds behind the loop. -/
private structure Parted (data after : ℤ → Value) (base N : ℤ) (v : Value) (i : ℤ) : Prop where
  positive : 1 ≤ i
  le : i ≤ N
  rearranged : Rearranged (base + 1) (base + N) data after
  low : ∀ k, 0 ≤ k → k < i → after (base + k) ≤ v
  high : ∀ k, i ≤ k → k < N → v ≤ after (base + k)

/-- What the two scans of one round find, and what they read. -/
private structure Scanned (data : ℤ → Value) (base N : ℤ) (v : Value) (i j up down : ℤ) (scans : List (Action Value)) :
    Prop where
  upLater : i < up
  upLe : up ≤ N
  downLe : i ≤ down
  downEarlier : down < j
  low : ∀ k, 0 ≤ k → k < up → data (base + k) ≤ v
  high : ∀ k, down < k → k < N → v ≤ data (base + k)
  upStop : up < N → v ≤ data (base + up)
  downStop : data (base + down) ≤ v
  accesses : ∀ action ∈ scans, ∃ index, action = .access base N index
  inside : (∀ action ∈ scans, action.Inside) ↔ ∃ k, i < k ∧ k < N ∧ v ≤ data (base + k)

section Partition

variable {data : ℤ → Value} {base N : ℤ} {v : Value} {i j up down : ℤ} {scans : List (Action Value)}

/-- One round of the loop, with enough rounds left. -/
private theorem round_spec (parting : Parting data base N v i j) : ∃ up down scans, Scanned data base N v i j up down scans ∧
    ∀ rounds : ℕ, N + (j - i) ≤ rounds → partition base N v (rounds + 1) data i j =
      if down ≤ up then some (data,up,scans)
      else (partition base N v rounds (swapped data (base + up) (base + down)) up down).map fun (after,last,more) =>
        (after,last,scans ++ [.access base N up,.access base N down] ++ more) := by
  have nonneg := parting.nonneg
  have apart := parting.apart
  have le := parting.le
  obtain ⟨up,upActions,scannedUp,upLater,upLe,upLess,upStop,upReached,upAccesses⟩ :=
    @scanUp_spec _ _ data base N v (N - i).toNat i (by omega) (by omega)
  obtain ⟨down,downActions,scannedDown,downLe,downEarlier,downGreater,downStop,downAccesses⟩ :=
    @scanDown_spec _ _ data base N v i (parting.low i nonneg le_rfl) (j - i).toNat j apart (by omega)
  have upInside : (∀ action ∈ upActions, action.Inside) ↔ ∃ k, i < k ∧ k < N ∧ v ≤ data (base + k) := by
    constructor
    · intro inside
      have stopped : up < N := (inside _ upReached).2
      exact ⟨up,upLater,stopped,upStop stopped⟩
    · rintro ⟨k,above,below,high⟩ action member
      have stopped : up ≤ k := not_lt.mp fun passed => (upLess k above passed).not_ge high
      obtain ⟨index,rfl,lower,upper⟩ := upAccesses action member
      exact ⟨by omega,by omega⟩
  have downInside : ∀ action ∈ downActions, action.Inside := fun action member => by
    obtain ⟨index,rfl,lower,upper⟩ := downAccesses action member
    exact ⟨by omega,by omega⟩
  refine ⟨up,down,upActions ++ downActions,⟨upLater,upLe,downLe,downEarlier,?low,?high,upStop,downStop,?accesses,?inside⟩,
    fun rounds many => ?round⟩
  case low =>
    intro k bound below
    rcases le_or_gt k i with before | behind
    exacts [parting.low k bound before,(upLess k behind below).le]
  case high =>
    intro k above bound
    rcases lt_or_ge k j with before | behind
    exacts [(downGreater k above before).le,parting.high k behind bound]
  case accesses =>
    intro action member
    rcases List.mem_append.mp member with first | second
    · obtain ⟨index,same,-⟩ := upAccesses action first
      exact ⟨index,same⟩
    · obtain ⟨index,same,-⟩ := downAccesses action second
      exact ⟨index,same⟩
  case inside => rw [List.forall_mem_append,upInside,and_iff_left downInside]
  case round =>
    simp only [partition,scannedUp rounds (by omega),scannedDown rounds (by omega),Option.bind_eq_bind,Option.bind_some]
    split
    · rfl
    · cases partition base N v rounds (swapped data (base + up) (base + down)) up down <;> rfl

/-- Where the scans meet, the range is parted. -/
private theorem Scanned.parted (scanned : Scanned data base N v i j up down scans) (parting : Parting data base N v i j)
    (met : down ≤ up) : Parted data data base N v up where
  positive := by
    have nonneg := parting.nonneg
    have later := scanned.upLater
    omega
  le := scanned.upLe
  rearranged := .refl data
  low := scanned.low
  high k above below := by
    rcases eq_or_ne k up with rfl | different
    exacts [scanned.upStop below,scanned.high k (by omega) below]

/-- Where they do not, the two elements are swapped, and the next round begins between them. -/
private theorem Scanned.parting (scanned : Scanned data base N v i j up down scans) (parting : Parting data base N v i j)
    (apart : up < down) : Parting (swapped data (base + up) (base + down)) base N v up down := by
  have nonneg := parting.nonneg
  have le := parting.le
  have later := scanned.upLater
  have earlier := scanned.downEarlier
  refine ⟨by omega,apart,by omega,fun k bound below => ?_,fun k above bound => ?_⟩
  · rcases eq_or_ne k up with rfl | different
    · rw [swapped_left]
      exact scanned.downStop
    · rw [swapped_of_ne data (by omega) (by omega)]
      exact scanned.low k bound (by omega)
  · rcases eq_or_ne k down with rfl | different
    · rw [swapped_right]
      exact scanned.upStop (by omega)
    · rw [swapped_of_ne data (by omega) (by omega)]
      exact scanned.high k (by omega) bound

end Partition

private theorem partition_spec {base N : ℤ} {v : Value} (count : ℕ) : ∀ data i j, Parting data base N v i j →
    j - i ≤ count → ∃ after last actions,
      (∀ rounds : ℕ, N + (j - i) < rounds → partition base N v rounds data i j = some (after,last,actions)) ∧
      Parted data after base N v last ∧ (∀ action ∈ actions, ∃ index, action = .access base N index) ∧
      ((∀ action ∈ actions, action.Inside) ↔ ∃ k, i < k ∧ k < N ∧ v ≤ data (base + k)) := by
  induction count with
  | zero =>
    intro data i j parting enough
    have apart := parting.apart
    omega
  | succ count ih =>
    intro data i j parting enough
    have nonneg := parting.nonneg
    have apart := parting.apart
    have le := parting.le
    obtain ⟨up,down,scans,scanned,round⟩ := round_spec parting
    have later := scanned.upLater
    have earlier := scanned.downEarlier
    by_cases met : down ≤ up
    · refine ⟨data,up,scans,fun rounds many => ?_,scanned.parted parting met,scanned.accesses,scanned.inside⟩
      obtain ⟨rounds,rfl⟩ := Nat.exists_eq_succ_of_ne_zero (show rounds ≠ 0 by omega)
      rw [round rounds (by omega),if_pos met]
    · obtain ⟨after,last,more,parted,split,accesses,inside⟩ :=
        ih _ up down (scanned.parting parting (by omega)) (by omega)
      refine ⟨after,last,scans ++ [.access base N up,.access base N down] ++ more,fun rounds many => ?_,?_,?_,?_⟩
      · obtain ⟨rounds,rfl⟩ := Nat.exists_eq_succ_of_ne_zero (show rounds ≠ 0 by omega)
        rw [round rounds (by omega),if_neg met,parted rounds (by omega),Option.map_some]
      · exact ⟨split.positive,split.le,(Rearranged.swapped data (by omega) (by omega)).trans split.rearranged,
          split.low,split.high⟩
      · simp only [List.forall_mem_append,List.forall_mem_cons]
        exact ⟨⟨scanned.accesses,⟨up,rfl⟩,⟨down,rfl⟩,List.forall_mem_nil _⟩,accesses⟩
      · have moreInside : ∀ action ∈ more, action.Inside :=
          inside.mpr ⟨down,by omega,by omega,by rw [swapped_right]; exact scanned.upStop (by omega)⟩
        simp only [List.forall_mem_append,List.forall_mem_cons,scanned.inside,and_iff_left moreInside]
        refine and_iff_left ⟨⟨?_,?_⟩,⟨?_,?_⟩,List.forall_mem_nil _⟩ <;> omega

/-! ## The sort -/

private theorem split_sorted {data parted left right : ℤ → Value} {base N i : ℤ}
    (split : Parted data parted base N (data base) i)
    (leftMoved : Rearranged base (base + (i - 1)) (swapped parted (base + (i - 1)) base) left)
    (leftSorted : SortedOn left base (base + (i - 1)))
    (rightMoved : Rearranged (base + i) (base + N) left right) (rightSorted : SortedOn right (base + i) (base + N)) :
    Rearranged base (base + N) data right ∧ SortedOn right base (base + N) := by
  have positive := split.positive
  have le := split.le
  have pivot : parted base = data base := split.rearranged.outside (by omega)
  have kept : ∀ k, k < base + i → right k = left k := fun k before => rightMoved.outside (by omega)
  have middle : right (base + (i - 1)) = data base := by
    rw [kept _ (by omega),leftMoved.outside (by omega),swapped_left,pivot]
  have leftPart : SortedOn right base (base + (i - 1)) := leftSorted.congr fun k _ upper => kept k (by omega)
  have rightPart : SortedOn right (base + (i - 1) + 1) (base + N) := by
    have next : base + (i - 1) + 1 = base + i := by omega
    rwa [next]
  refine ⟨?_,leftPart.join rightPart (fun k lower upper => ?_) fun k lower upper => ?_⟩
  · have parting : Rearranged base (base + N) data parted := split.rearranged.mono (by omega) le_rfl
    have swapping : Rearranged base (base + N) parted (swapped parted (base + (i - 1)) base) :=
      .swapped parted (by omega) (by omega)
    exact ((parting.trans swapping).trans (leftMoved.mono le_rfl (by omega))).trans
      (rightMoved.mono (by omega) le_rfl)
  · rw [middle,kept k (by omega)]
    refine leftMoved.forall_inside (· ≤ data base) (fun k lower upper => ?_) lower upper
    rcases eq_or_ne k base with rfl | different
    · rw [swapped_right]
      exact split.low (i - 1) (by omega) (by omega)
    · rw [swapped_of_ne parted (by omega) different]
      simpa using split.low (k - base) (by omega) (by omega)
  · rw [middle]
    refine rightMoved.forall_inside (data base ≤ ·) (fun k lower upper => ?_) (by omega) upper
    rw [leftMoved.outside (by omega),swapped_of_ne parted (by omega) (by omega)]
    simpa using split.high (k - base) (by omega) (by omega)

private theorem sort_spec (count : ℕ) : ∀ (data : ℤ → Value) (base N : ℤ), N ≤ count → ∃ after actions,
    (∀ depth : ℕ, 2 * N + 2 ≤ depth → 0 < depth → sort depth data base N = some (after,actions)) ∧
    Rearranged base (base + N) data after ∧ SortedOn after base (base + N) ∧
    ((∀ action ∈ actions, action.Inside) ↔ ∀ action ∈ actions, action.Bounded) := by
  have small : ∀ (data : ℤ → Value) (base N : ℤ), N ≤ 1 → ∃ after actions,
      (∀ depth : ℕ, 2 * N + 2 ≤ depth → 0 < depth → sort depth data base N = some (after,actions)) ∧
      Rearranged base (base + N) data after ∧ SortedOn after base (base + N) ∧
      ((∀ action ∈ actions, action.Inside) ↔ ∀ action ∈ actions, action.Bounded) := by
    intro data base N few
    refine ⟨data,[.call data base N],fun depth _ positive => ?_,.refl data,sortedOn_of_le_one (by omega),?_⟩
    · obtain ⟨depth,rfl⟩ := Nat.exists_eq_succ_of_ne_zero positive.ne'
      exact if_pos few
    · simp [Action.Inside,Action.Bounded,few.not_gt]
  induction count with
  | zero => exact fun data base N few => small data base N (by omega)
  | succ count ih =>
    intro data base N bound
    rcases le_or_gt N 1 with few | several
    · exact small data base N few
    have start : Parting data base N (data base) 0 N := by
      refine ⟨le_rfl,by omega,le_rfl,fun k lower upper => ?_,fun k lower upper => by omega⟩
      obtain rfl : k = 0 := by omega
      rw [add_zero]
    obtain ⟨parted,i,scans,parting,split,accesses,scansInside⟩ := partition_spec N.toNat data 0 N start (by omega)
    have positive := split.positive
    have le := split.le
    obtain ⟨left,leftActions,leftRuns,leftMoved,leftSorted,leftInside⟩ :=
      ih (swapped parted (base + (i - 1)) base) base (i - 1) (by omega)
    obtain ⟨right,rightActions,rightRuns,rightMoved,rightSorted,rightInside⟩ := ih left (base + i) (N - i) (by omega)
    have rest : base + i + (N - i) = base + N := by omega
    rw [rest] at rightMoved rightSorted
    obtain ⟨moved,sorted⟩ := split_sorted split leftMoved leftSorted rightMoved rightSorted
    refine ⟨right,.call data base N :: .access base N 0 :: scans ++
      [.access base N (i - 1),.access base N 0] ++ leftActions ++ rightActions,fun depth many positive => ?_,
      moved,sorted,?_⟩
    · obtain ⟨depth,rfl⟩ := Nat.exists_eq_succ_of_ne_zero positive.ne'
      simp only [sort,if_neg several.not_ge,parting depth (by omega),leftRuns depth (by omega) (by omega),
        rightRuns depth (by omega) (by omega),Option.bind_eq_bind,Option.bind_some]
    · have scansBounded : ∀ action ∈ scans, action.Bounded := fun action member => by
        obtain ⟨index,rfl⟩ := accesses action member
        trivial
      have first : (Action.access base N 0 : Action Value).Inside := ⟨le_rfl,by omega⟩
      have exchanged : (Action.access base N (i - 1) : Action Value).Inside := ⟨by omega,by omega⟩
      have pivot : (Action.call data base N).Bounded ↔ ∀ action ∈ scans, action.Inside := by
        rw [scansInside,Action.Bounded,imp_iff_right several]
      have called : (Action.call data base N).Inside := trivial
      have free : ∀ index, (Action.access base N index : Action Value).Bounded := fun _ => trivial
      simp only [List.cons_append,List.forall_mem_append,List.forall_mem_cons,List.not_mem_nil,false_implies,
        implies_true,pivot,first,exchanged,called,free,leftInside,rightInside,true_and,and_true]
      rw [iff_true_intro scansBounded,true_and,and_assoc]

theorem sorts_unique {data after other : ℤ → Value} {base N : ℤ} {actions otherActions : List (Action Value)}
    (sorts : Sorts data base N after actions) (otherSorts : Sorts data base N other otherActions) :
    after = other ∧ actions = otherActions := by
  obtain ⟨enough,runs⟩ := sorts
  obtain ⟨otherEnough,otherRuns⟩ := otherSorts
  have same := (runs (max enough otherEnough) (le_max_left _ _)).symm.trans
    (otherRuns (max enough otherEnough) (le_max_right _ _))
  simpa using same

theorem sorted_spec (data : ℤ → Value) (N : ℤ) :
    Rearranged 0 N data (sorted data N) ∧ SortedOn (sorted data N) 0 N := by
  obtain ⟨after,actions,runs,moved,ordered,-⟩ := sort_spec N.toNat data 0 N (by omega)
  have same : sorted data N = after := by
    rw [sorted,runs _ (by omega) (by omega),Option.map_some,Option.getD_some]
  rw [zero_add] at moved ordered
  rw [same]
  exact ⟨moved,ordered⟩

/-- The sort ends for every range, and sorts it. -/
theorem exists_sorts (data : ℤ → Value) (base N : ℤ) : ∃ after actions, Sorts data base N after actions ∧
    Rearranged base (base + N) data after ∧ SortedOn after base (base + N) ∧
    ((∀ action ∈ actions, action.Inside) ↔ ∀ action ∈ actions, action.Bounded) := by
  obtain ⟨after,actions,runs,moved,sorted,inside⟩ := sort_spec N.toNat data base N (by omega)
  exact ⟨after,actions,⟨(2 * N + 2).toNat + 1,fun depth many => runs depth (by omega) (by omega)⟩,moved,sorted,inside⟩

/-- The sort is lawful exactly when none of its calls is given a range whose first element is greater than all
    others. -/
theorem sort_lawful_iff (data : ℤ → Value) (base N : ℤ) : Lawful data base N ↔
    ∀ after actions, Sorts data base N after actions → ∀ action ∈ actions, action.Bounded := by
  obtain ⟨after,actions,sorts,moved,sorted,inside⟩ := exists_sorts data base N
  constructor
  · rintro ⟨lawfulAfter,lawfulActions,lawfulSorts,stays,-⟩ other otherActions otherSorts
    obtain ⟨-,rfl⟩ := sorts_unique sorts lawfulSorts
    obtain ⟨-,rfl⟩ := sorts_unique sorts otherSorts
    exact inside.mp stays
  · intro bounded
    exact ⟨after,actions,sorts,inside.mpr (bounded after actions sorts),sorted.pairwise_values,moved.values_perm,
      fun k away => moved.outside away⟩

private theorem call_mem {data after : ℤ → Value} {base N : ℤ} {actions : List (Action Value)}
    (sorts : Sorts data base N after actions) : .call data base N ∈ actions := by
  obtain ⟨enough,runs⟩ := sorts
  have found := runs (enough + 1) (Nat.le_succ _)
  rw [sort] at found
  split_ifs at found
  · cases found
    exact List.mem_singleton_self _
  · simp only [Option.bind_eq_bind,Option.bind_eq_some_iff] at found
    obtain ⟨parted,-,left,-,right,-,same⟩ := found
    cases same
    simp

/-- The indices of the elements that are read and written. -/
def Action.index : Action Value → Option ℤ
  | .call .. => none
  | .access _ _ index => some index

/-- Two values in the wrong order, 0 and -1: the first scan reads the element behind them. -/
theorem falling_pair_read_behind : ¬ Lawful (fun k : ℤ => -k) 0 2 ∧
    (sort 4 (fun k : ℤ => -k) 0 2).map (fun run => run.2.filterMap Action.index) = some [0,1,2,1,1,0] := by
  refine ⟨?_,by decide⟩
  rintro ⟨after,actions,sorts,inside,-⟩
  obtain ⟨other,otherActions,otherSorts,-,-,iff⟩ := exists_sorts (fun k : ℤ => -k) 0 2
  obtain ⟨-,rfl⟩ := sorts_unique sorts otherSorts
  obtain ⟨k,positive,-,le⟩ := iff.mp inside _ (call_mem sorts) (by decide)
  simp only [neg_zero,zero_add] at le
  omega

end Vexjine.MedianSort
