import Vexjine.ModelTime
import Vexjine.Floats

/-!
# Timeouts in nanoseconds

A timeout comes in milliseconds and nanoseconds and is added to the run time of its
thread. Both steps are guarded against the largest `long`; between them the times are
`float` values, whose scaling factors are 1 here unless they are given.
-/

namespace Vexjine.Timeouts
open Vexjine.VirtualTimeline Vexjine.ThreadTimers Vexjine.ModelTime Vexjine.Floats

/-- An `int`. -/
abbrev Nanoseconds := {time : Int // -2 ^ 31 ≤ time ∧ time < 2 ^ 31}

/-- The result of 64-bit arithmetic, and none where it overflows. -/
def checked (value : Int) : Option Int := if -2 ^ 63 ≤ value ∧ value ≤ LLONG_MAX then some value else none

/-- `LONG_MAX` is that of 64 bits. -/
def ensureTimeoutIsLessThanMax (timeout nanoTimeout : Int) : Option Int :=
  if LLONG_MAX / 1000000 ≤ timeout then some LLONG_MAX
  else (checked (timeout * 1000000)).bind fun nanoseconds => checked (nanoseconds + nanoTimeout)

/-- The factors are `float` values, and so are all operations with them. -/
def updateTimesBeforeWaitingWithTimeout (virtualTimeSpeedup globalScalingFactor : ℚ) (timers : Timers) (timeout : Int) :
    Option Timers :=
  if timeout = 0 then some (timers.setTimeout timeout)
  else
    (checked (LLONG_MAX - timers.estimatedRealTime)).bind fun left =>
    if toFloat (toFloat left / toFloat (virtualTimeSpeedup * globalScalingFactor)) ≤ toFloat timeout then
      some ((timers.setTimeout timeout).setEstimatedRealTime LLONG_MAX)
    else
      let scaled := toFloat (toFloat (toFloat timeout * virtualTimeSpeedup) * globalScalingFactor)
      (checked (truncated (toFloat (toFloat timers.estimatedRealTime + scaled)))).map fun time =>
        (timers.setTimeout timeout).setEstimatedRealTime time

/-- Both steps, as the wait of a thread makes them. -/
def waitWithTimeout (timers : Timers) (timeout nanoTimeout : Int) : Option Timers :=
  (ensureTimeoutIsLessThanMax timeout nanoTimeout).bind fun nanoseconds =>
    updateTimesBeforeWaitingWithTimeout 1 1 timers nanoseconds

def total (timeout nanoTimeout : Int) : Int := timeout * 1000000 + nanoTimeout

/-- Nothing overflows, and a nonnegative timeout is added up to the largest time. -/
def AddsTimeout (timers : Timers) (timeout nanoTimeout : Int) : Prop :=
  ∃ after ∈ waitWithTimeout timers timeout nanoTimeout,
    0 ≤ timeout → after.estimatedRealTime = min (timers.estimatedRealTime + total timeout nanoTimeout) LLONG_MAX

/-- What a time loses or gains as a `float`. -/
def conversionError (time : Int) : ℚ := toFloat time - time

/-- The sum of both times is a `float`, and takes in the errors of their conversions. -/
def SumIsFloat (runTime timeout : Int) : Prop :=
  Representable 24 (runTime + timeout : Int) ∧
    TakesIn 24 (runTime + timeout : Int) (conversionError runTime + conversionError timeout)

/-- A timeout in milliseconds up to the largest `long` reaches the largest time, or its nanoseconds are a `long`.
    Then it is zero, reaches the largest time, or its `float` is less than that of the time left and the sum is a
    `float`; a negative one need not carry the `float` of the run time to the middle below 2 ^ 63. -/
def FloatsSuffice (runTime timeout nanoTimeout : Int) : Prop :=
  if LLONG_MAX / 1000000 ≤ timeout then LLONG_MAX ≤ runTime + total timeout nanoTimeout
  else -2 ^ 63 ≤ timeout * 1000000 ∧ -2 ^ 63 ≤ total timeout nanoTimeout ∧ total timeout nanoTimeout ≤ LLONG_MAX ∧
    (total timeout nanoTimeout = 0 ∨
      if 0 ≤ timeout then
        LLONG_MAX ≤ runTime + total timeout nanoTimeout ∨
          toFloat (total timeout nanoTimeout) < toFloat (LLONG_MAX - runTime : Int) ∧
            SumIsFloat runTime (total timeout nanoTimeout)
      else
        toFloat (LLONG_MAX - runTime : Int) ≤ toFloat (total timeout nanoTimeout) ∨
          toFloat runTime + toFloat (total timeout nanoTimeout) < 2 ^ 63 - 2 ^ 38)

/-! ## The steps -/

private theorem toFloat_one : toFloat 1 = 1 := by
  have exactly := @rounded_intCast 24 1 (by decide)
  exact_mod_cast exactly

/-- Without scaling the times are added as `float` values. -/
private theorem update_eq {timers : Timers} {timeout : Int} (nonneg : 0 ≤ timers.estimatedRealTime)
    (bounded : timers.estimatedRealTime ≤ LLONG_MAX) (nonzero : timeout ≠ 0) :
    updateTimesBeforeWaitingWithTimeout 1 1 timers timeout =
      if toFloat (LLONG_MAX - timers.estimatedRealTime : Int) ≤ toFloat timeout then
        some ((timers.setTimeout timeout).setEstimatedRealTime LLONG_MAX)
      else (checked (truncated (toFloat (toFloat timers.estimatedRealTime + toFloat timeout)))).map fun time =>
        (timers.setTimeout timeout).setEstimatedRealTime time := by
  have left : checked (LLONG_MAX - timers.estimatedRealTime) = some (LLONG_MAX - timers.estimatedRealTime) := by
    unfold checked LLONG_MAX at *
    exact if_pos (by omega)
  simp only [updateTimesBeforeWaitingWithTimeout,if_neg nonzero,left,Option.bind_some,mul_one,toFloat_one,div_one,
    toFloat_idem]

private theorem sum_eq_iff (runTime timeout : Int) :
    toFloat (toFloat runTime + toFloat timeout) = (runTime + timeout : Int) ↔ SumIsFloat runTime timeout := by
  by_cases zero : runTime + timeout = 0
  · have opposite : timeout = -runTime := by omega
    have mirrored : toFloat ((-runTime : Int) : ℚ) = -toFloat runTime := by
      rw [Int.cast_neg]
      exact rounded_neg 24 runTime
    have cancelled : conversionError runTime + conversionError (-runTime) = 0 := by
      rw [conversionError,conversionError,mirrored]
      push_cast
      ring
    have unitPos := unit_pos 24 0
    refine iff_of_true ?_ ⟨?_,.inl ?_⟩
    · rw [zero,opposite,mirrored,add_neg_cancel,toFloat,rounded_zero,Int.cast_zero]
    · rw [zero,Int.cast_zero]
      exact rounded_zero 24
    · rw [zero,opposite,cancelled,Int.cast_zero,abs_zero,mul_zero,gap,add_zero,if_neg (by simp)]
      exact unitPos
  · have nonzero : ((runTime + timeout : Int) : ℚ) ≠ 0 := Int.cast_ne_zero.mpr zero
    have sum : toFloat runTime + toFloat timeout =
        (runTime + timeout : Int) + (conversionError runTime + conversionError timeout) := by
      rw [conversionError,conversionError]
      push_cast
      ring
    rw [sum]
    exact rounded_add_eq_iff (by decide) nonzero

/-- The sum of two `float` values of integers is one, too. -/
private theorem exists_sum (runTime timeout : Int) : ∃ sum : Int, toFloat (toFloat runTime + toFloat timeout) = sum := by
  obtain ⟨first,isFirst⟩ := exists_rounded_intCast 24 runTime
  obtain ⟨second,isSecond⟩ := exists_rounded_intCast 24 timeout
  obtain ⟨sum,isSum⟩ := exists_rounded_intCast 24 (first + second)
  refine ⟨sum,?_⟩
  rw [toFloat,toFloat,toFloat,isFirst,isSecond,← Int.cast_add]
  exact isSum

/-! ## Both steps -/

private theorem checked_eq_some {value result : Int} :
    checked value = some result ↔ (-2 ^ 63 ≤ value ∧ value ≤ LLONG_MAX) ∧ value = result := by
  rw [checked,Option.ite_none_right_eq_some,Option.some.injEq]

private theorem longLong_of_fits {value : Int} (fits : -2 ^ 63 ≤ value ∧ value ≤ LLONG_MAX) : longLong value = value := by
  unfold longLong LLONG_MAX at *
  rw [Int.bmod_def]
  omega

private theorem toLongLong_of_fits {value : ℚ} (fits : -2 ^ 63 ≤ truncated value ∧ truncated value ≤ LLONG_MAX) :
    (toLongLong value).toInt = truncated value := by
  have small : truncated value < 2 ^ 63 := by
    unfold LLONG_MAX at fits
    omega
  rw [toLongLong,if_pos ⟨fits.1,small⟩]
  exact Int64.toInt_ofInt_of_le (by simpa using fits.1) (by simpa using small)

/-- Where nothing overflows, this is what the timers do. -/
theorem updateTimesBeforeWaitingWithTimeout_eq {virtualTimeSpeedup globalScalingFactor : ℚ} {timers after : Timers}
    {timeout : Int}
    (updated : updateTimesBeforeWaitingWithTimeout virtualTimeSpeedup globalScalingFactor timers timeout = some after) :
    timers.updateTimesBeforeWaitingWithTimeout virtualTimeSpeedup globalScalingFactor timeout = after := by
  unfold updateTimesBeforeWaitingWithTimeout at updated
  unfold Timers.updateTimesBeforeWaitingWithTimeout
  by_cases zero : timeout = 0
  · rw [if_pos zero] at updated ⊢
    exact Option.some.inj updated
  rw [if_neg zero,Option.bind_eq_some_iff] at updated
  rw [if_neg zero]
  obtain ⟨left,isLeft,rest⟩ := updated
  obtain ⟨inRange,rfl⟩ := checked_eq_some.mp isLeft
  have same : reachesMax virtualTimeSpeedup globalScalingFactor timers.estimatedRealTime timeout ↔
      toFloat (toFloat (LLONG_MAX - timers.estimatedRealTime : Int) / toFloat (virtualTimeSpeedup * globalScalingFactor)) ≤
        toFloat timeout := by
    rw [reachesMax,longLong_of_fits inRange]
  by_cases largest : reachesMax virtualTimeSpeedup globalScalingFactor timers.estimatedRealTime timeout
  · rw [if_pos (same.mp largest)] at rest
    rw [if_pos largest]
    exact Option.some.inj rest
  · rw [if_neg (largest ∘ same.mpr),Option.map_eq_some_iff] at rest
    rw [if_neg largest]
    obtain ⟨time,isTime,rfl⟩ := rest
    obtain ⟨fits,rfl⟩ := checked_eq_some.mp isTime
    rw [scaled,toLongLong_of_fits fits]

private theorem ensure_eq {timeout nanoTimeout : Int} (less : timeout < LLONG_MAX / 1000000) (result : Int) :
    ensureTimeoutIsLessThanMax timeout nanoTimeout = some result ↔
      (-2 ^ 63 ≤ timeout * 1000000 ∧ -2 ^ 63 ≤ total timeout nanoTimeout ∧ total timeout nanoTimeout ≤ LLONG_MAX) ∧
        total timeout nanoTimeout = result := by
  rw [ensureTimeoutIsLessThanMax,if_neg (not_le.mpr less),Option.bind_eq_some_iff]
  simp only [checked_eq_some,total]
  unfold LLONG_MAX at *
  constructor
  · rintro ⟨nanoseconds,⟨⟨low,high⟩,rfl⟩,⟨least,most⟩,rfl⟩
    exact ⟨⟨low,least,most⟩,rfl⟩
  · rintro ⟨⟨low,least,most⟩,rfl⟩
    exact ⟨_,⟨⟨low,by omega⟩,rfl⟩,⟨least,most⟩,rfl⟩

/-- A nonzero timeout up to the time left is added exactly where the sum is a `float`. -/
private theorem exists_update_iff {timers : Timers} {timeout : Int} (nonneg : 0 ≤ timers.estimatedRealTime)
    (bounded : timers.estimatedRealTime ≤ LLONG_MAX) (low : -2 ^ 63 ≤ timeout) (nonzero : timeout ≠ 0) :
    (∃ after ∈ updateTimesBeforeWaitingWithTimeout 1 1 timers timeout,
        after.estimatedRealTime = min (timers.estimatedRealTime + timeout) LLONG_MAX) ↔
      LLONG_MAX ≤ timers.estimatedRealTime + timeout ∨
        toFloat timeout < toFloat (LLONG_MAX - timers.estimatedRealTime : Int) ∧
          SumIsFloat timers.estimatedRealTime timeout := by
  rw [update_eq nonneg bounded nonzero]
  by_cases saturates : toFloat (LLONG_MAX - timers.estimatedRealTime : Int) ≤ toFloat timeout
  · rw [if_pos saturates]
    simp only [Option.mem_def,Option.some.injEq,exists_eq_left',Timers.setEstimatedRealTime,
      not_lt.mpr saturates,false_and,or_false]
    omega
  · have less : timers.estimatedRealTime + timeout < LLONG_MAX := by
      by_contra reaches
      refine saturates (rounded_mono (by decide) ?_)
      exact_mod_cast (show LLONG_MAX - timers.estimatedRealTime ≤ timeout by omega)
    obtain ⟨sum,isSum⟩ := exists_sum timers.estimatedRealTime timeout
    rw [if_neg saturates,← sum_eq_iff,isSum,truncated_intCast,min_eq_left less.le]
    simp only [Option.mem_def,Option.map_eq_some_iff,checked_eq_some,not_le.mpr less,false_or,not_le.mp saturates,true_and,
      Int.cast_inj]
    constructor
    · rintro ⟨-,⟨time,⟨-,rfl⟩,rfl⟩,added⟩
      exact added
    · rintro rfl
      exact ⟨_,⟨_,⟨⟨by omega,less.le⟩,rfl⟩,rfl⟩,rfl⟩

/-- A nonzero timeout overflows exactly where the `float` of the sum leaves the range. -/
private theorem isSome_update_iff {timers : Timers} {timeout : Int} (nonneg : 0 ≤ timers.estimatedRealTime)
    (bounded : timers.estimatedRealTime ≤ LLONG_MAX) (low : -2 ^ 63 ≤ timeout) (nonzero : timeout ≠ 0) :
    (∃ after, after ∈ updateTimesBeforeWaitingWithTimeout 1 1 timers timeout) ↔
      toFloat (LLONG_MAX - timers.estimatedRealTime : Int) ≤ toFloat timeout ∨
        toFloat timers.estimatedRealTime + toFloat timeout < 2 ^ 63 - 2 ^ 38 := by
  rw [update_eq nonneg bounded nonzero]
  by_cases saturates : toFloat (LLONG_MAX - timers.estimatedRealTime : Int) ≤ toFloat timeout
  · rw [if_pos saturates]
    exact iff_of_true ⟨_,rfl⟩ (.inl saturates)
  · obtain ⟨sum,isSum⟩ := exists_sum timers.estimatedRealTime timeout
    rw [if_neg saturates,← toFloat_lt_iff,isSum,truncated_intCast]
    simp only [Option.mem_def,Option.map_eq_some_iff,checked_eq_some,saturates,false_or]
    have least : -2 ^ 63 ≤ sum := by
      have runTime := @rounded_mono 24 0 timers.estimatedRealTime (by decide) (by exact_mod_cast nonneg)
      rw [rounded_zero] at runTime
      have waiting := neg_le_toFloat (show (-2 ^ 63 : ℚ) ≤ timeout by exact_mod_cast low)
      have both : (-2 ^ 63 : ℚ) ≤ sum := by
        rw [← isSum]
        refine neg_le_toFloat ?_
        exact le_trans (by linarith) (add_le_add runTime waiting)
      exact_mod_cast both
    constructor
    · rintro ⟨-,time,⟨⟨-,most⟩,rfl⟩,rfl⟩
      unfold LLONG_MAX at most
      exact_mod_cast (show sum < 2 ^ 63 by omega)
    · intro less
      have most : sum < 2 ^ 63 := by exact_mod_cast less
      exact ⟨_,sum,⟨⟨least,by unfold LLONG_MAX; omega⟩,rfl⟩,rfl⟩

private theorem update_largest {timers : Timers} (nonneg : 0 ≤ timers.estimatedRealTime)
    (bounded : timers.estimatedRealTime ≤ LLONG_MAX) :
    updateTimesBeforeWaitingWithTimeout 1 1 timers LLONG_MAX =
      some ((timers.setTimeout LLONG_MAX).setEstimatedRealTime LLONG_MAX) := by
  rw [update_eq nonneg bounded (by decide),if_pos]
  refine rounded_mono (by decide) ?_
  exact_mod_cast (show LLONG_MAX - timers.estimatedRealTime ≤ LLONG_MAX by omega)

private theorem addsTimeout_iff_of_less {timers : Timers} {timeout nanoTimeout : Int} (less : timeout < LLONG_MAX / 1000000) :
    AddsTimeout timers timeout nanoTimeout ↔
      (-2 ^ 63 ≤ timeout * 1000000 ∧ -2 ^ 63 ≤ total timeout nanoTimeout ∧ total timeout nanoTimeout ≤ LLONG_MAX) ∧
        ∃ after ∈ updateTimesBeforeWaitingWithTimeout 1 1 timers (total timeout nanoTimeout),
          0 ≤ timeout → after.estimatedRealTime = min (timers.estimatedRealTime + total timeout nanoTimeout) LLONG_MAX := by
  simp only [AddsTimeout,waitWithTimeout,Option.mem_def,Option.bind_eq_some_iff,ensure_eq less]
  constructor
  · rintro ⟨after,⟨nanoseconds,⟨fits,rfl⟩,updated⟩,adds⟩
    exact ⟨fits,after,updated,adds⟩
  · rintro ⟨fits,after,updated,adds⟩
    exact ⟨after,⟨_,⟨fits,rfl⟩,updated⟩,adds⟩

/-- For all timeouts, nanoseconds and run times of 64 bits: nothing overflows, and a nonnegative timeout is added up to
    the largest time, exactly where the `float` values between the two steps suffice. -/
theorem adds_timeout_iff (timers : Timers) (runTime : VirtualTime) (timeout : LongLong) (nanoTimeout : Nanoseconds) :
    AddsTimeout (timers.setEstimatedRealTime runTime) timeout nanoTimeout ↔ FloatsSuffice runTime timeout nanoTimeout := by
  have nonneg : 0 ≤ (timers.setEstimatedRealTime runTime).estimatedRealTime := runTime.2.1
  have bounded : (timers.setEstimatedRealTime runTime).estimatedRealTime ≤ LLONG_MAX := runTime.2.2
  rw [FloatsSuffice]
  by_cases large : LLONG_MAX / 1000000 ≤ timeout.1
  · have positive : 0 ≤ timeout.1 := le_trans (by decide) large
    rw [if_pos large,AddsTimeout,waitWithTimeout,ensureTimeoutIsLessThanMax,if_pos large,Option.bind_some,
      update_largest nonneg bounded]
    simp only [Option.mem_def,Option.some.injEq,exists_eq_left',positive,forall_const,Timers.setEstimatedRealTime]
    omega
  · rw [if_neg large,addsTimeout_iff_of_less (not_le.mp large),and_assoc,and_assoc]
    refine and_congr_right fun _ => and_congr_right fun low => and_congr_right fun high => ?_
    by_cases zero : total timeout.1 nanoTimeout.1 = 0
    · rw [zero,updateTimesBeforeWaitingWithTimeout,if_pos rfl]
      refine iff_of_true ⟨_,rfl,fun _ => ?_⟩ (.inl rfl)
      rw [add_zero,min_eq_left bounded]
      rfl
    · rw [or_iff_right zero]
      split
      · rename_i forward
        simp only [forward,forall_const]
        exact exists_update_iff nonneg bounded low zero
      · rename_i backward
        simp only [backward,false_implies,and_true]
        exact isSome_update_iff nonneg bounded low zero

/-- A `float` from 2 ^ 24 to 2 ^ 25 is even. -/
private theorem odd_not_representable : ¬ Representable 24 17777217 := by
  intro exactly
  obtain ⟨significand,is⟩ := representable_iff.mp exactly
  have log : Int.log 2 (17777217 : ℚ) = 24 := log_eq_of_between (by norm_num) (by norm_num)
  rw [unit_eq (by norm_num),log] at is
  have double : (17777217 : ℚ) = significand * 2 := by simpa using is
  have : (17777217 : Int) = significand * 2 := by exact_mod_cast double
  omega

/-- A wait of 1 ms after a run time of 16777217 ns ends at 17777216 ns. -/
theorem millisecond_not_added : ¬ ∀ (timers : Timers) (runTime : VirtualTime) (timeout : LongLong)
    (nanoTimeout : Nanoseconds), AddsTimeout (timers.setEstimatedRealTime runTime) timeout nanoTimeout := by
  intro claimed
  have adds := claimed {} ⟨16777217,by decide⟩ ⟨1,by decide⟩ ⟨0,by decide⟩
  obtain ⟨-,after,updated,added⟩ := (addsTimeout_iff_of_less (by decide)).mp adds
  have exactly := (exists_update_iff (by decide) (by decide) (by decide) (by decide)).mp ⟨after,updated,added (by decide)⟩
  rcases exactly with reaches | ⟨-,representable,-⟩
  · exact absurd reaches (by decide)
  · exact odd_not_representable (by simpa [total,Timers.setEstimatedRealTime] using representable)

end Vexjine.Timeouts
