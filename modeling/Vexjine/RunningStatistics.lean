import Mathlib.Analysis.Real.Sqrt
import Vexjine.Samples

/-!
# Statistics of samples

Mean and standard deviation of samples that are not kept: each sample changes a sum and a term of the variance.
The samples are of a ring whose elements have exact values, the integers for durations.
-/

namespace Vexjine.RunningStatistics
open Deviations

structure QStats (SampleType : Type*) where
  sum : SampleType
  varianceTerm : ℚ
  samples : Nat

variable {SampleType : Type*} [CommRing SampleType] (toDouble : SampleType →+* ℚ)

namespace QStats

def empty : QStats SampleType := ⟨0,0,0⟩

variable (stats : QStats SampleType)

def addSample (sample : SampleType) : QStats SampleType :=
  let samples := stats.samples + 1
  { sum := stats.sum + sample
    varianceTerm :=
      if 1 < samples then
        let term := stats.sum - (samples - 1 : Nat) * sample
        stats.varianceTerm + (toDouble term / samples) * (toDouble term / (samples - 1))
      else stats.varianceTerm
    samples := samples }

def getMean : ℚ := if 0 < stats.samples then toDouble stats.sum / stats.samples else 0

noncomputable def getStdev : ℝ :=
  if 1 < stats.samples then Real.sqrt ((stats.varianceTerm / (stats.samples - 1) : ℚ) : ℝ) else 0

end QStats

def addSamples (samples : List SampleType) : QStats SampleType :=
  samples.foldl (fun stats sample => stats.addSample toDouble sample) QStats.empty

/-- What the object knows of the samples, which it does not keep. -/
structure Summarizes (stats : QStats SampleType) (values : Multiset SampleType) : Prop where
  sum : stats.sum = values.sum
  varianceTerm : stats.varianceTerm = squaredDeviations (values.map toDouble)
  samples : stats.samples = values.card

section Samples
variable {toDouble} {stats other : QStats SampleType} {values : Multiset SampleType}

private theorem empty_summarizes : Summarizes toDouble QStats.empty 0 :=
  ⟨rfl,by simp [QStats.empty,squaredDeviations],rfl⟩

private theorem addSample_summarizes (summary : Summarizes toDouble stats values) (sample : SampleType) :
    Summarizes toDouble (stats.addSample toDouble sample) (sample ::ₘ values) := by
  obtain ⟨sum,varianceTerm,samples⟩ := summary
  refine ⟨?_,?_,?_⟩
  · rw [QStats.addSample,sum,Multiset.sum_cons,add_comm]
  · rw [Multiset.map_cons,squaredDeviations_cons,← varianceTerm]
    have total : toDouble stats.sum = (values.map toDouble).sum := by rw [sum,map_multiset_sum]
    by_cases first : stats.samples = 0
    · have none : values = 0 := Multiset.card_eq_zero.mp (samples ▸ first)
      simp [QStats.addSample,first,none]
    · have several : 1 < stats.samples + 1 := by omega
      simp only [QStats.addSample,if_pos several,Nat.add_sub_cancel,map_sub,map_mul,map_natCast,total,
        Multiset.card_map,← samples,Nat.cast_add,Nat.cast_one,add_sub_cancel_right]
      rw [div_mul_div_comm,sq]
  · rw [QStats.addSample,samples,Multiset.card_cons]

/-- By induction on the samples that follow. -/
private theorem foldl_summarizes (summary : Summarizes toDouble stats values) (samples : List SampleType) :
    Summarizes toDouble (samples.foldl (fun stats sample => stats.addSample toDouble sample) stats)
      (samples + values) := by
  induction samples generalizing stats values with
  | nil => simpa using summary
  | cons sample samples ih =>
    have rest := ih (addSample_summarizes summary sample)
    rwa [Multiset.add_cons,← Multiset.cons_add,Multiset.cons_coe] at rest

theorem addSamples_summarizes (samples : List SampleType) :
    Summarizes toDouble (addSamples toDouble samples) samples := by
  have summary : Summarizes toDouble (addSamples toDouble samples) (samples + 0) := foldl_summarizes empty_summarizes samples
  rwa [add_zero] at summary

private theorem Summarizes.unique (first : Summarizes toDouble stats values) (second : Summarizes toDouble other values) :
    stats = other := by
  obtain ⟨sum,varianceTerm,samples⟩ := stats
  obtain ⟨otherSum,otherTerm,otherSamples⟩ := other
  cases first.sum.trans second.sum.symm
  cases first.varianceTerm.trans second.varianceTerm.symm
  cases first.samples.trans second.samples.symm
  rfl

private theorem getMean_of_summarizes (summary : Summarizes toDouble stats values) :
    stats.getMean toDouble = mean (values.map toDouble) := by
  rw [QStats.getMean,mean,Multiset.card_map,← map_multiset_sum,← summary.sum,← summary.samples]
  by_cases some : 0 < stats.samples
  · rw [if_pos some]
  · have none : stats.samples = 0 := by omega
    rw [if_neg some,none,Nat.cast_zero,div_zero]

private theorem getStdev_of_summarizes (summary : Summarizes toDouble stats values) (several : 2 ≤ values.card) :
    stats.getStdev ^ 2 = (sampleVariance (values.map toDouble) : ℚ) := by
  have more : 1 < stats.samples := summary.samples ▸ several
  have divisor : (0 : ℚ) ≤ stats.samples - 1 := sub_nonneg.mpr (Nat.one_le_cast.mpr more.le)
  have nonneg : 0 ≤ stats.varianceTerm / (stats.samples - 1) :=
    div_nonneg (summary.varianceTerm ▸ squaredDeviations_nonneg _) divisor
  rw [QStats.getStdev,if_pos more,Real.sq_sqrt (Rat.cast_nonneg.mpr nonneg),sampleVariance,Multiset.card_map,
    summary.varianceTerm,summary.samples]

end Samples

/-- The mean and the square of the standard deviation are those of two passes over the samples, and their order
    makes no difference. -/
theorem addSamples_statistics (samples : List SampleType) (several : 2 ≤ samples.length) :
    (addSamples toDouble samples).getStdev ^ 2 = (sampleVariance (samples.map toDouble : Multiset ℚ) : ℚ) ∧
    (addSamples toDouble samples).getMean toDouble = mean (samples.map toDouble : Multiset ℚ) ∧
    ∀ order : List SampleType, order.Perm samples → addSamples toDouble order = addSamples toDouble samples := by
  have summary : Summarizes toDouble (addSamples toDouble samples) samples := addSamples_summarizes samples
  refine ⟨?_,?_,?_⟩
  · rw [← Multiset.map_coe]
    exact getStdev_of_summarizes summary several
  · rw [← Multiset.map_coe]
    exact getMean_of_summarizes summary
  · intro order perm
    have reordered : Summarizes toDouble (addSamples toDouble order) order := addSamples_summarizes order
    rw [Multiset.coe_eq_coe.mpr perm] at reordered
    exact reordered.unique summary

theorem addSamples_statistics_durations :
    (addSamples (Int.castRingHom ℚ) [2,4,9]).getStdev ^ 2 = ((13 : ℚ) : ℝ) ∧
      (addSamples (Int.castRingHom ℚ) [2,4,9]).getMean (Int.castRingHom ℚ) = 5 := by
  obtain ⟨variance,average,-⟩ := addSamples_statistics (Int.castRingHom ℚ) [2,4,9] (by decide)
  refine ⟨?_,?_⟩
  · rw [variance]
    norm_num [sampleVariance,squaredDeviations,mean]
  · rw [average]
    norm_num [mean]

end Vexjine.RunningStatistics
