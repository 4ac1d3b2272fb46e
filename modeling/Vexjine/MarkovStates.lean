import Vexjine.MarkovTraining

/-!
# The states after the training

Each round of the training fills a bucket more when the bucket that it splits is as wide as the number of its parts.
Otherwise it divides by 0 or changes measurements, and measurements never fall again.
-/

namespace Vexjine.MarkovTraining

/-- The measurements do not fall, and the buckets of the elements stay values of an `int`. -/
private structure Grows (before after : MarkovModulatedProcess) : Prop where
  buffer : ∀ k, before.buffer k ≤ after.buffer k
  short : (∀ k, int (before.bucketOfElement k) = before.bucketOfElement k) →
    ∀ k, int (after.bucketOfElement k) = after.bucketOfElement k

namespace Grows

variable {first second third : MarkovModulatedProcess}

private theorem refl (process : MarkovModulatedProcess) : Grows process process := ⟨fun _ => le_rfl,id⟩

private theorem trans (earlier : Grows first second) (later : Grows second third) : Grows first third :=
  ⟨fun k => (earlier.buffer k).trans (later.buffer k),later.short ∘ earlier.short⟩

private theorem of_buckets (kept : second.buffer = first.buffer)
    (buckets : ∀ k, second.bucketOfElement k = first.bucketOfElement k ∨
      int (second.bucketOfElement k) = second.bucketOfElement k) : Grows first second :=
  ⟨fun k => (congrFun kept k).ge,fun short k => (buckets k).elim (fun same => same ▸ short k) id⟩

end Grows

private theorem int_int (value : ℤ) : int (int value) = int value := Int.bmod_bmod

namespace MarkovModulatedProcess

variable {circular_buffersize states : ℕ} {process : MarkovModulatedProcess}

private theorem differentiate_spec (circular_buffersize : ℕ) (process : MarkovModulatedProcess) (bucketId : ℤ) :
    (process.differentiate circular_buffersize bucketId).1.bucketOfElement = process.bucketOfElement ∧
    (∀ k, process.buffer k ≤ (process.differentiate circular_buffersize bucketId).1.buffer k) ∧
    (2 ≤ (process.differentiate circular_buffersize bucketId).2 →
      ∃ k < circular_buffersize, process.buffer k < (process.differentiate circular_buffersize bucketId).1.buffer k) := by
  induction circular_buffersize with
  | zero => simp [differentiate]
  | succ n ih =>
    obtain ⟨buckets,grown,twice⟩ := ih
    have next : process.differentiate (n + 1) bucketId =
        let earlier := process.differentiate n bucketId
        if bucketId = earlier.1.bucketOfElement n
        then ({ earlier.1 with buffer := Function.update earlier.1.buffer n (earlier.1.buffer n + earlier.2) },earlier.2 + 1)
        else earlier := by
      rw [differentiate,List.range_succ,List.foldl_append]
      rfl
    rw [next]
    dsimp only
    rw [buckets]
    generalize process.differentiate n bucketId = earlier at buckets grown twice ⊢
    by_cases chosen : bucketId = process.bucketOfElement n
    · rw [if_pos chosen]
      refine ⟨rfl,fun k => ?_,fun two => ⟨n,Nat.lt_succ_self n,?_⟩⟩
      · dsimp only
        rcases eq_or_ne k n with rfl | different
        · rw [Function.update_self]
          have := grown k
          omega
        · rw [Function.update_of_ne different]
          exact grown k
      · dsimp only at two ⊢
        rw [Function.update_self]
        have := grown n
        omega
    · rw [if_neg chosen]
      exact ⟨buckets,grown,fun two => (twice two).imp fun k found => ⟨found.1.trans (Nat.lt_succ_self n),found.2⟩⟩

private theorem place_ok {bucketId lowestBucketId min step : ℤ} {newBucketsToCreate i : ℕ} {placed : MarkovModulatedProcess}
    (done : process.place states bucketId newBucketsToCreate lowestBucketId min step i = .ok placed) :
    placed.buffer = process.buffer ∧ ∀ k, placed.bucketOfElement k = process.bucketOfElement k ∨
      int (placed.bucketOfElement k) = placed.bucketOfElement k := by
  have updated : ∀ k, let bucket := target newBucketsToCreate lowestBucketId min step (process.buffer i)
      Function.update process.bucketOfElement i bucket k = process.bucketOfElement k ∨
      int (Function.update process.bucketOfElement i bucket k) = Function.update process.bucketOfElement i bucket k := by
    intro k
    rcases eq_or_ne k i with rfl | different
    · refine .inr ?_
      rw [Function.update_self,target]
      split
      · exact int_int _
      · exact int_int _
    · exact .inl (Function.update_of_ne different _ _)
  rw [place] at done
  split at done
  · split at done
    · cases done
    · dsimp only at done
      split at done
      · obtain ⟨_,-,stored⟩ := FallibleLoops.bind_ok_iff.mp done
        cases stored
        exact ⟨rfl,updated⟩
      · split at done
        · obtain ⟨_,-,rest⟩ := FallibleLoops.bind_ok_iff.mp done
          obtain ⟨_,-,stored⟩ := FallibleLoops.bind_ok_iff.mp rest
          cases stored
          exact ⟨rfl,updated⟩
        · cases done
          exact ⟨rfl,updated⟩
  · cases done
    exact ⟨rfl,fun _ => .inl rfl⟩

private theorem distribute_grows {bucketId lowestBucketId : ℤ} {newBucketsToCreate : ℕ}
    {distributed : MarkovModulatedProcess}
    (done : process.distributeAllInBucket circular_buffersize states bucketId newBucketsToCreate lowestBucketId =
      .ok distributed) : Grows process distributed := by
  have placed : ∀ {first last : MarkovModulatedProcess} {min step : ℤ}, (List.range circular_buffersize).foldlM
      (fun process i => process.place states bucketId newBucketsToCreate lowestBucketId min step i) first = .ok last →
      Grows first last := fun ended =>
    FallibleLoops.related Grows Grows.refl Grows.trans
      (fun stepped => Grows.of_buckets (place_ok stepped).1 (place_ok stepped).2) ended
  rw [distributeAllInBucket] at done
  by_cases zero : process.step circular_buffersize bucketId newBucketsToCreate = 0
  · rw [if_pos zero] at done
    obtain ⟨buckets,grown,-⟩ := differentiate_spec circular_buffersize process bucketId
    exact Grows.trans ⟨grown,fun short => buckets ▸ short⟩ (placed done)
  · rw [if_neg zero] at done
    exact placed done

/-- When the step is 0, the distribution divides by 0 or changes a measurement. -/
private theorem distribute_changes {bucketId lowestBucketId : ℤ} {newBucketsToCreate : ℕ}
    {distributed : MarkovModulatedProcess} (several : 2 ≤ newBucketsToCreate) (nonempty : ∃ k < circular_buffersize, bucketId = process.bucketOfElement k)
    (zero : process.step circular_buffersize bucketId newBucketsToCreate = 0)
    (done : process.distributeAllInBucket circular_buffersize states bucketId newBucketsToCreate lowestBucketId =
      .ok distributed) : ∃ k < circular_buffersize, process.buffer k < distributed.buffer k := by
  obtain ⟨i,inside,chosen⟩ := nonempty
  obtain ⟨buckets,-,twice⟩ := differentiate_spec circular_buffersize process bucketId
  rw [distributeAllInBucket,if_pos zero] at done
  generalize process.differentiate circular_buffersize bucketId = differentiated at buckets twice done
  have kept : ∀ {first last : MarkovModulatedProcess} {min step : ℤ}, (List.range circular_buffersize).foldlM
      (fun process i => process.place states bucketId newBucketsToCreate lowestBucketId min step i) first = .ok last →
      last.buffer = first.buffer := fun ended =>
    FallibleLoops.related (fun first last => last.buffer = first.buffer) (fun _ => rfl)
      (fun {first second third} (earlier : second.buffer = first.buffer) (later : third.buffer = second.buffer) =>
        later.trans earlier) (fun stepped => (place_ok stepped).1) ended
  rw [kept done]
  refine twice (not_lt.mp fun few => ?_)
  have noStep : ((differentiated.2 : ℕ) : ℤ).tdiv newBucketsToCreate = 0 := by
    rw [Int.tdiv_eq_ediv_of_nonneg (by omega)]
    exact Int.ediv_eq_zero_of_lt (by omega) (by omega)
  dsimp only at done
  rw [noStep] at done
  have divided := FallibleLoops.idle (fun {process next i} stepped => by
    rw [place] at stepped
    split at stepped
    · cases stepped
    · exact (Except.ok.inj stepped).symm) done (List.mem_range.mpr inside)
  rw [place,buckets,if_pos chosen] at divided
  cases divided

private theorem compact_grows {compacted : MarkovModulatedProcess} (done : process.compact states = .ok compacted) :
    Grows process compacted :=
  FallibleLoops.related Grows Grows.refl Grows.trans (fun {process filled i} stepped => by
    rw [fill] at stepped
    split at stepped
    · split at stepped
      · exact Except.ok.inj stepped ▸ Grows.refl process
      · split at stepped
        · cases stepped
        · cases stepped
          refine Grows.of_buckets rfl fun k => ?_
          change (if _ then _ else _) = _ ∨ int (if _ then _ else _) = (if _ then _ else _)
          split
          · exact .inr (int_int _)
          · exact .inl rfl
    · exact Except.ok.inj stepped ▸ Grows.refl process) done

private theorem count_ok {full null : ℕ} {largest : ℤ} (done : process.count states = .ok (full,null,largest)) :
    int largest = largest :=
  FallibleLoops.related (fun first last : ℕ × ℕ × ℤ => int first.2.2 = first.2.2 → int last.2.2 = last.2.2)
    (fun _ => id) (fun earlier later => later ∘ earlier) (fun {found next i} stepped short => by
      obtain ⟨full,null,largest⟩ := found
      dsimp only at stepped
      split at stepped
      · cases stepped
        exact short
      · split at stepped
        · cases stepped
          dsimp only
          exact int_int _
        · obtain ⟨_,-,counted⟩ := FallibleLoops.bind_ok_iff.mp stepped
          cases counted
          dsimp only
          split
          · exact int_int _
          · exact short) done (by decide)

private theorem exchange_grows {fullBuckets : ℕ} {largestBucket : ℤ} {exchanged : MarkovModulatedProcess}
    (short : int largestBucket = largestBucket) (done : process.exchange states fullBuckets largestBucket = .ok exchanged) :
    Grows process exchanged := by
  obtain ⟨_,-,rest⟩ := FallibleLoops.bind_ok_iff.mp done
  obtain ⟨_,-,stored⟩ := FallibleLoops.bind_ok_iff.mp rest
  cases stored
  refine Grows.of_buckets rfl fun k => ?_
  dsimp only
  split
  · exact .inr (int_int _)
  · split
    · exact .inr short
    · exact .inl rfl

end MarkovModulatedProcess

namespace Loop

variable {circular_buffersize states : ℕ} {loop next : Loop}

/-- The parts of a round that did not fail. -/
private theorem body_ok (done : loop.body circular_buffersize states = .ok next) :
    ∃ distributed, loop.process.distributeAllInBucket circular_buffersize states loop.largestBucket
        (loop.nullBuckets + 1) (int (unsigned (loop.fullBuckets - 1))) = .ok distributed ∧
      Grows distributed next.process := by
  obtain ⟨distributed,split,rest⟩ := FallibleLoops.bind_ok_iff.mp done
  obtain ⟨compacted,compact,rest⟩ := FallibleLoops.bind_ok_iff.mp rest
  obtain ⟨⟨full,null,largest⟩,counted,rest⟩ := FallibleLoops.bind_ok_iff.mp rest
  refine ⟨distributed,split,MarkovModulatedProcess.compact_grows compact |>.trans ?_⟩
  dsimp only at rest
  split at rest
  · cases rest
    exact Grows.refl compacted
  · obtain ⟨exchanged,exchange,rest⟩ := FallibleLoops.bind_ok_iff.mp rest
    cases rest
    exact MarkovModulatedProcess.exchange_grows (MarkovModulatedProcess.count_ok counted) exchange

private theorem body_grows (done : loop.body circular_buffersize states = .ok next) : Grows loop.process next.process := by
  obtain ⟨distributed,split,rest⟩ := body_ok done
  exact (MarkovModulatedProcess.distribute_grows split).trans rest

private theorem run_grows {rounds : ℕ} {process : MarkovModulatedProcess}
    (done : loop.run circular_buffersize states rounds = .ok process) : Grows loop.process process := by
  induction rounds generalizing loop with
  | zero => cases done
  | succ rounds ih =>
    obtain ⟨next,stepped,rest⟩ := FallibleLoops.bind_ok_iff.mp done
    refine (body_grows stepped).trans ?_
    split at rest
    · exact Except.ok.inj rest ▸ Grows.refl next.process
    · exact ih rest

open MarkovModulatedProcess Assignments

/-- At the head of the loop the full buckets come first, and the last of them, or the elements that are in no bucket
    yet, are split next. -/
private structure Head (circular_buffersize states : ℕ) (buffer : ℕ → ℤ) (loop : Loop) : Prop where
  kept : loop.process.buffer = buffer
  parts : loop.fullBuckets + loop.nullBuckets = states
  filled : 0 < loop.fullBuckets
  remaining : 0 < loop.nullBuckets
  counted : Counted circular_buffersize states loop.process.bucketOfElement loop.process.bucketSizes
  splits : Splits loop.largestBucket (loop.fullBuckets - 1)
  nonempty : ∃ k < circular_buffersize, loop.largestBucket = loop.process.bucketOfElement k
  others : ∀ k < circular_buffersize, loop.largestBucket ≠ loop.process.bucketOfElement k →
    0 ≤ loop.process.bucketOfElement k ∧ loop.process.bucketOfElement k < (loop.fullBuckets - 1 : ℕ)
  before : ∀ bucket < loop.fullBuckets - 1, ∃ k < circular_buffersize, loop.process.bucketOfElement k = bucket

private theorem start_head {buffer : ℕ → ℤ} (several : 2 ≤ states) (available : states ≤ circular_buffersize) :
    Head circular_buffersize states buffer (start states buffer) where
  kept := rfl
  parts := Nat.add_sub_cancel' (show 1 ≤ states by omega)
  filled := Nat.one_pos
  remaining := Nat.sub_pos_of_lt several
  counted := fun bucket _ => by
    have none : Assignments.count circular_buffersize (fun _ => (-1 : ℤ)) bucket = 0 := by
      rw [Assignments.count,Finset.card_eq_zero,Finset.filter_eq_empty_iff]
      intro k _
      omega
    exact (congrArg UInt32.ofNat none).symm
  splits := .inl ⟨rfl,rfl⟩
  nonempty := ⟨0,by omega,rfl⟩
  others := fun _ _ different => absurd rfl different
  before := fun _ inside => absurd inside (Nat.not_lt_zero _)

/-- What a round leaves behind: the first buckets are full. -/
private structure Sorted (circular_buffersize states : ℕ) (buffer : ℕ → ℤ) (loop : Loop) : Prop where
  kept : loop.process.buffer = buffer
  partition : loop.process.Partition circular_buffersize states
  full : loop.process.full states = Finset.range loop.fullBuckets
  parts : loop.fullBuckets + loop.nullBuckets = states

private theorem head_of_sorted {buffer : ℕ → ℤ} (representable : circular_buffersize < 2 ^ 32)
    (sorted : Sorted circular_buffersize states buffer loop) (several : 2 ≤ loop.fullBuckets)
    (remaining : loop.nullBuckets ≠ 0) (last : loop.largestBucket = (loop.fullBuckets - 1 : ℕ)) :
    Head circular_buffersize states buffer loop := by
  have inhabited : ∀ bucket < loop.fullBuckets, ∃ k < circular_buffersize, loop.process.bucketOfElement k = bucket :=
    fun bucket inside => by
      have member : bucket ∈ loop.process.full states := by rw [sorted.full]; exact Finset.mem_range.mpr inside
      obtain ⟨available,nonzero⟩ := mem_full.mp member
      exact (size_ne_zero_iff representable sorted.partition.counted available).mp nonzero
  have bounded : ∀ k < circular_buffersize, loop.process.bucketOfElement k < loop.fullBuckets := fun k element => by
    obtain ⟨nonneg,below⟩ := sorted.partition.assigned k element
    obtain ⟨bucket,isBucket⟩ := Int.eq_ofNat_of_zero_le nonneg
    have member : bucket ∈ loop.process.full states := mem_full.mpr ⟨by omega,
      (size_ne_zero_iff representable sorted.partition.counted (by omega)).mpr ⟨k,element,isBucket⟩⟩
    rw [sorted.full,Finset.mem_range] at member
    omega
  refine ⟨sorted.kept,sorted.parts,by omega,by omega,sorted.partition.counted,.inr ⟨last,by omega⟩,?_,?_,?_⟩
  · obtain ⟨k,element,inLast⟩ := inhabited (loop.fullBuckets - 1) (by omega)
    exact ⟨k,element,last.trans inLast.symm⟩
  · intro k element different
    have := bounded k element
    exact ⟨(sorted.partition.assigned k element).1,by omega⟩
  · exact fun bucket inside => inhabited bucket (by omega)

private theorem int_pred {buckets : ℕ} (positive : 0 < buckets) (small : buckets ≤ 2 ^ 31) :
    int (unsigned ((buckets : ℤ) - 1)) = (buckets - 1 : ℕ) := by
  rw [unsigned,Int.emod_eq_of_lt (by omega) (by omega),int_eq (by omega) (by omega)]
  omega

/-- A round in which the bucket is wide enough does not fail and fills more buckets. -/
private theorem body_spec {buffer : ℕ → ℤ} (representable : circular_buffersize < 2 ^ 32) (small : states ≤ 2 ^ 31)
    (measured : ∀ k < circular_buffersize, 0 ≤ buffer k ∧ buffer k ≤ LLONG_MAX)
    (head : Head circular_buffersize states buffer loop) (divisible : loop.Divisible circular_buffersize) :
    ∃ next, loop.body circular_buffersize states = .ok next ∧ Sorted circular_buffersize states buffer next ∧
      loop.fullBuckets < next.fullBuckets ∧
      (next.nullBuckets ≠ 0 → Head circular_buffersize states buffer next) := by
  have parts := head.parts
  have filled := head.filled
  have remaining := head.remaining
  have lowest := int_pred head.filled (show loop.fullBuckets ≤ 2 ^ 31 by omega)
  obtain ⟨distributed,split,kept,counted,untouched,moved,first,final⟩ := distributeAllInBucket_spec head.counted
    head.splits (show loop.fullBuckets - 1 + (loop.nullBuckets + 1) = states by omega) (by omega) small
    (head.kept ▸ measured) head.nonempty divisible
  have partition : distributed.Partition circular_buffersize states := by
    refine ⟨counted,fun k element => ?_⟩
    by_cases chosen : loop.largestBucket = loop.process.bucketOfElement k
    · obtain ⟨number,-,available,into,-⟩ := moved k element chosen
      omega
    · have known := head.others k element chosen
      rw [untouched k element chosen]
      omega
  have inhabited : insert (states - 1) (Finset.range loop.fullBuckets) ⊆ distributed.full states := fun bucket member => by
    have element : bucket < states ∧ ∃ k < circular_buffersize, distributed.bucketOfElement k = bucket := by
      rcases Finset.mem_insert.mp member with rfl | inside
      · exact ⟨by omega,final⟩
      · have below := Finset.mem_range.mp inside
        refine ⟨by omega,?_⟩
        rcases (Nat.le_sub_one_of_lt below).lt_or_eq with earlier | rfl
        · obtain ⟨k,element,inBucket⟩ := head.before bucket earlier
          refine ⟨k,element,?_⟩
          rw [untouched k element fun same => by rcases head.splits with ⟨unassigned,-⟩ | ⟨isLast,-⟩ <;> omega]
          exact inBucket
        · exact first
    exact mem_full.mpr ⟨element.1,(size_ne_zero_iff representable counted element.1).mpr element.2⟩
  have more : loop.fullBuckets < (distributed.full states).card := by
    have enough := Finset.card_le_card inhabited
    rw [Finset.card_insert_of_notMem (by simp; omega),Finset.card_range] at enough
    exact enough
  obtain ⟨compacted,compact,keptAgain,partitioned,packed⟩ := compact_spec representable small partition
  have sameNumber : (compacted.full states).card = (distributed.full states).card := by rw [packed,Finset.card_range]
  obtain ⟨null,largest,counts,together,known⟩ := count_spec compacted small
  rw [sameNumber] at counts together known
  have run : loop.body circular_buffersize states = (if null = 0
      then .ok ⟨compacted,(distributed.full states).card,null,largest⟩
      else (compacted.exchange states (distributed.full states).card largest).bind fun exchanged =>
        .ok ⟨exchanged,(distributed.full states).card,null,int (unsigned ((distributed.full states).card - 1))⟩) := by
    rw [body,lowest,split]
    simp only [bind,Except.bind,compact,counts]
  by_cases done : null = 0
  · rw [run,if_pos done]
    exact ⟨_,rfl,⟨keptAgain.trans (kept.trans head.kept),partitioned,packed,together⟩,more,
      fun remaining => absurd done remaining⟩
  · obtain ⟨bucket,member,rfl⟩ := known (by omega)
    rw [packed,Finset.mem_range] at member
    obtain ⟨exchanged,exchange,keptAtEnd,partitionAtEnd,packedAtEnd⟩ :=
      exchange_spec small partitioned packed member (by omega)
    have sorted : Sorted circular_buffersize states buffer
        ⟨exchanged,(distributed.full states).card,null,int (unsigned ((distributed.full states).card - 1))⟩ :=
      ⟨keptAtEnd.trans (keptAgain.trans (kept.trans head.kept)),partitionAtEnd,packedAtEnd,together⟩
    have last := int_pred (show 0 < (distributed.full states).card by omega)
      (show (distributed.full states).card ≤ 2 ^ 31 by omega)
    rw [run,if_neg done,exchange]
    exact ⟨_,rfl,sorted,more,fun remaining =>
      head_of_sorted representable sorted (show 2 ≤ (distributed.full states).card by omega) remaining last⟩

/-- With wide buckets in all rounds the loop ends, for every round fills a bucket. -/
private theorem run_spec {buffer : ℕ → ℤ} (rounds : ℕ) (representable : circular_buffersize < 2 ^ 32)
    (small : states ≤ 2 ^ 31) (measured : ∀ k < circular_buffersize, 0 ≤ buffer k ∧ buffer k ≤ LLONG_MAX)
    (head : Head circular_buffersize states buffer loop) (enough : loop.nullBuckets ≤ rounds)
    (divisible : ∀ later, Reaches circular_buffersize states loop later → later.Divisible circular_buffersize) :
    ∃ process, loop.run circular_buffersize states rounds = .ok process ∧ process.buffer = buffer ∧
      process.Partition circular_buffersize states ∧ process.full states = Finset.range states := by
  induction rounds generalizing loop with
  | zero => exact absurd head.remaining (by omega)
  | succ rounds ih =>
    obtain ⟨next,stepped,sorted,more,again⟩ := body_spec representable small measured head (divisible loop (.here loop))
    have parts := head.parts
    have together := sorted.parts
    have continued : loop.run circular_buffersize states (rounds + 1) =
        if next.nullBuckets = 0 then .ok next.process else next.run circular_buffersize states rounds := by
      rw [run,stepped]
      rfl
    by_cases done : next.nullBuckets = 0
    · rw [continued,if_pos done]
      refine ⟨next.process,rfl,sorted.kept,sorted.partition,?_⟩
      rw [sorted.full,show next.fullBuckets = states by omega]
    · rw [continued,if_neg done]
      exact ih (again done) (by omega) fun later reaches => divisible later (.round stepped done reaches)

/-- When the training leaves the measurements as they are, the bucket was wide enough in every round. -/
private theorem divisible_of_run {buffer : ℕ → ℤ} {later : Loop} {rounds : ℕ} {process : MarkovModulatedProcess}
    (representable : circular_buffersize < 2 ^ 32) (small : states ≤ 2 ^ 31)
    (measured : ∀ k < circular_buffersize, 0 ≤ buffer k ∧ buffer k ≤ LLONG_MAX)
    (head : Head circular_buffersize states buffer loop) (reaches : Reaches circular_buffersize states loop later)
    (done : loop.run circular_buffersize states rounds = .ok process)
    (kept : ∀ k < circular_buffersize, process.buffer k = buffer k) : later.Divisible circular_buffersize := by
  have wide : ∀ {loop : Loop} {rounds : ℕ}, Head circular_buffersize states buffer loop →
      loop.run circular_buffersize states rounds = .ok process → loop.Divisible circular_buffersize := by
    intro loop rounds head done narrow
    cases rounds with
    | zero => cases done
    | succ rounds =>
      obtain ⟨next,stepped,rest⟩ := FallibleLoops.bind_ok_iff.mp done
      obtain ⟨distributed,split,grown⟩ := body_ok stepped
      obtain ⟨k,element,changed⟩ := distribute_changes (by have := head.remaining; omega) head.nonempty narrow split
      have atEnd : next.process.buffer k ≤ process.buffer k := by
        split at rest
        · cases rest
          exact le_rfl
        · exact (run_grows rest).buffer k
      have same := kept k element
      have before := grown.buffer k
      rw [head.kept] at changed
      omega
  induction reaches generalizing rounds with
  | here loop => exact wide head done
  | @round loop next later stepped again reaches ih =>
    obtain ⟨following,same,_,_,onward⟩ := body_spec representable small measured head (wide head done)
    obtain rfl : following = next := Except.ok.inj (same.symm.trans stepped)
    cases rounds with
    | zero => cases done
    | succ rounds =>
      obtain ⟨following',stepped',rest⟩ := FallibleLoops.bind_ok_iff.mp done
      obtain rfl : following' = following := Except.ok.inj (stepped'.symm.trans stepped)
      rw [if_neg again] at rest
      exact ih (onward again) rest

end Loop

namespace MarkovModulatedProcess

/-- A bucket that knows its elements gives one of them for every random number. -/
private theorem sample_spec {circular_buffersize states state : ℕ} {process : MarkovModulatedProcess}
    (representable : circular_buffersize < 2 ^ 32) (partition : process.Partition circular_buffersize states)
    (full : state ∈ process.full states) (rand : ℕ) :
    ∃ k < circular_buffersize, process.bucketOfElement k = state ∧
      process.sampleMeasurementOfState circular_buffersize state rand = some (process.buffer k) := by
  obtain ⟨available,nonzero⟩ := mem_full.mp full
  have size := toNat_size representable partition.counted available
  have positive : 0 < (process.bucketSizes state).toNat := by
    rw [Nat.pos_iff_ne_zero]
    exact fun zero => nonzero (UInt32.toNat_inj.mp zero)
  have inside : rand % (process.bucketSizes state).toNat <
      ((List.range circular_buffersize).filter fun k => process.bucketOfElement k = state).length := by
    rw [Assignments.length_filter,← size]
    exact Nat.mod_lt _ positive
  rw [sampleMeasurementOfState,if_neg nonzero,List.getElem?_eq_getElem inside]
  obtain ⟨member,inState⟩ := List.mem_filter.mp (List.getElem_mem inside)
  exact ⟨_,List.mem_range.mp member,of_decide_eq_true inState,rfl⟩

end MarkovModulatedProcess

/-- The training is faithful exactly when no bucket is narrower than the number of its parts, and states are values of
    an `int`. -/
theorem training_faithful_iff {circular_buffersize states : ℕ} {buffer : ℕ → ℤ} (several : 2 ≤ states)
    (available : states ≤ circular_buffersize) (representable : circular_buffersize < 2 ^ 32)
    (measured : ∀ k < circular_buffersize, 0 ≤ buffer k ∧ buffer k ≤ LLONG_MAX) :
    Faithful circular_buffersize states buffer ↔
      states ≤ 2 ^ 31 ∧ ∀ loop, Reaches circular_buffersize states (Loop.start states buffer) loop →
        loop.Divisible circular_buffersize := by
  have head : Loop.Head circular_buffersize states buffer (Loop.start states buffer) := Loop.start_head several available
  constructor
  · rintro ⟨rounds,process,trained,nonempty,-,-,kept⟩
    have small : states ≤ 2 ^ 31 := by
      by_contra many
      obtain ⟨k,-,reached⟩ := nonempty (2 ^ 31) (by omega)
      have short := (Loop.run_grows trained).short (fun _ => by rfl) k
      rw [reached] at short
      revert short
      decide
    exact ⟨small,fun loop reaches => Loop.divisible_of_run representable small measured head reaches trained kept⟩
  · rintro ⟨small,divisible⟩
    obtain ⟨process,trained,kept,partition,full⟩ :=
      Loop.run_spec states representable small measured head (Nat.sub_le states 1) divisible
    have member : ∀ state < states, state ∈ process.full states := fun state inside => by
      rw [full]
      exact Finset.mem_range.mpr inside
    refine ⟨states,process,trained,fun state inside => ?_,fun state inside => ?_,fun state inside rand => ?_,
      fun k _ => congrFun kept k⟩
    · have nonzero := (MarkovModulatedProcess.mem_full.mp (member state inside)).2
      exact (size_ne_zero_iff representable partition.counted inside).mp nonzero
    · exact toNat_size representable partition.counted inside
    · rw [← kept]
      exact MarkovModulatedProcess.sample_spec representable partition (member state inside) rand

/-- What the training ends with does not depend on how many rounds it is given. -/
theorem Loop.run_unique {circular_buffersize states rounds others : ℕ} {loop : Loop}
    {process other : MarkovModulatedProcess} (first : loop.run circular_buffersize states rounds = .ok process)
    (second : loop.run circular_buffersize states others = .ok other) : process = other := by
  induction rounds generalizing loop others with
  | zero => cases first
  | succ rounds ih =>
    cases others with
    | zero => cases second
    | succ others =>
      obtain ⟨next,stepped,rest⟩ := FallibleLoops.bind_ok_iff.mp first
      obtain ⟨_,same,rest'⟩ := FallibleLoops.bind_ok_iff.mp second
      obtain rfl := Except.ok.inj (stepped.symm.trans same)
      split at rest
      · rw [if_pos ‹_›] at rest'
        exact Except.ok.inj (rest.symm.trans rest')
      · rw [if_neg ‹_›] at rest'
        exact ih rest rest'

/-- With two states the training ends after one round. -/
theorem two_states {circular_buffersize : ℕ} {buffer : ℕ → ℤ} (several : 2 ≤ circular_buffersize)
    (representable : circular_buffersize < 2 ^ 32)
    (measured : ∀ k < circular_buffersize, 0 ≤ buffer k ∧ buffer k ≤ LLONG_MAX)
    (divisible : (Loop.start 2 buffer).Divisible circular_buffersize) :
    ∃ process, setStateLimits circular_buffersize 2 1 buffer = .ok process ∧
      ∀ k < circular_buffersize, ∃ number : ℕ, number < 2 ∧ process.bucketOfElement k = number ∧
        MarkovModulatedProcess.target 2 (0 : ℕ) ((MarkovModulatedProcess.init buffer).min circular_buffersize (-1))
          ((MarkovModulatedProcess.init buffer).step circular_buffersize (-1) 2) (buffer k) = number := by
  have head : Loop.Head circular_buffersize 2 buffer (Loop.start 2 buffer) := Loop.start_head le_rfl several
  obtain ⟨distributed,split,-,counted,-,moved,⟨first,firstInside,inFirst⟩,⟨last,lastInside,inLast⟩⟩ :=
    MarkovModulatedProcess.distributeAllInBucket_spec head.counted head.splits (show 0 + 2 = 2 by rfl) le_rfl (by decide)
      measured head.nonempty divisible
  have size : ∀ bucket < 2, distributed.bucketSizes bucket ≠ 0 := fun bucket inside => by
    refine (size_ne_zero_iff representable counted inside).mpr ?_
    interval_cases bucket
    exacts [⟨first,firstInside,inFirst⟩,⟨last,lastInside,inLast⟩]
  have full : distributed.full 2 = Finset.range 2 := by
    rw [MarkovModulatedProcess.full,Finset.filter_true_of_mem fun bucket member => size bucket (Finset.mem_range.mp member)]
  have compact : distributed.compact 2 = .ok distributed := by
    change (distributed.fill 2 0 >>= pure) = _
    rw [bind_pure,MarkovModulatedProcess.fill,if_neg (size 0 (by decide))]
  obtain ⟨null,largest,counts,together,-⟩ := MarkovModulatedProcess.count_spec distributed (show 2 ≤ 2 ^ 31 by decide)
  rw [full,Finset.card_range] at counts together
  obtain rfl : null = 0 := by omega
  refine ⟨distributed,?_,fun k inside => ?_⟩
  · have body : (Loop.start 2 buffer).body circular_buffersize 2 = .ok ⟨distributed,2,0,largest⟩ := by
      have splitFirst : (Loop.start 2 buffer).process.distributeAllInBucket circular_buffersize 2
          (Loop.start 2 buffer).largestBucket ((Loop.start 2 buffer).nullBuckets + 1)
          ((Loop.start 2 buffer).fullBuckets - 1 : ℕ) = .ok distributed := split
      rw [Loop.body,Loop.int_pred head.filled (show 1 ≤ 2 ^ 31 by decide),splitFirst]
      simp only [bind,Except.bind,compact,counts]
      rfl
    rw [setStateLimits,Loop.run,body]
    rfl
  · obtain ⟨number,-,available,inBucket,into⟩ := moved k inside rfl
    exact ⟨number,available,inBucket,into⟩

/-- Two measurements that are far enough apart. -/
theorem faithful_apart : Faithful 2 2 fun k => 10 * k := by
  refine (training_faithful_iff le_rfl le_rfl (by decide) fun k _ => ⟨by positivity,by rw [LLONG_MAX]; omega⟩).mpr ⟨by decide,?_⟩
  have ends : ((Loop.start 2 fun k => 10 * k).body 2 2).map Loop.nullBuckets = .ok 0 := by decide
  rintro loop (_ | ⟨stepped,again,_⟩)
  · exact by decide
  · rw [stepped] at ends
    exact absurd (Except.ok.inj ends) again

/-- Two measurements with a difference of 1: they become equal, and the buckets are filled twice. -/
theorem close_measurements_changed : ¬Faithful 2 2 fun k => 6 - k := by
  rintro ⟨rounds,process,trained,-,-,-,kept⟩
  have wide : (Loop.start 2 fun k => 6 - k).Divisible 2 :=
    Loop.divisible_of_run (by decide) (by decide) (fun k inside => ⟨by omega,by rw [LLONG_MAX]; omega⟩)
      (Loop.start_head le_rfl le_rfl) (.here _) trained kept
  revert wide
  decide

end Vexjine.MarkovTraining
