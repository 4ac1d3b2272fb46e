import Mathlib.MeasureTheory.Integral.IntervalIntegral.Basic
import Mathlib.MeasureTheory.Constructions.BorelSpace.Order

/-!
# Fluid processor sharing

Jobs arrive at a server that serves all jobs present at the same rate, the reciprocal of their number. A job is
present from its arrival until its departure, which may be outstanding. The departures are those of processor
sharing if every job is served for exactly its demand while it is present; this determines them.
-/

namespace Vexjine.FluidSharing
open MeasureTheory
open scoped Interval

variable {Job : Type*} (jobs : Finset Job) (arrival : Job → ℝ)

/-- The jobs present at a time. -/
noncomputable def present (departure : Job → WithTop ℝ) (t : ℝ) : ℕ :=
  (jobs.filter fun j => arrival j ≤ t ∧ (t : WithTop ℝ) < departure j).card

/-- The rate at which each of them is served. -/
noncomputable def rate (departure : Job → WithTop ℝ) (t : ℝ) : ℝ := 1 / (present jobs arrival departure t : ℝ)

/-- The departures of processor sharing. -/
structure Shares (demand : Job → ℝ) (departure : Job → ℝ) : Prop where
  stays : ∀ j ∈ jobs, arrival j ≤ departure j
  served : ∀ j ∈ jobs, ∫ t in arrival j..departure j, rate jobs arrival (fun j => (departure j : WithTop ℝ)) t = demand j

section Rate
variable {jobs arrival} {departure other : Job → WithTop ℝ} {a b : ℝ}

theorem rate_nonneg (t : ℝ) : 0 ≤ rate jobs arrival departure t := by
  unfold rate
  positivity

theorem rate_le_one (t : ℝ) : rate jobs arrival departure t ≤ 1 := by
  unfold rate
  rcases Nat.eq_zero_or_pos (present jobs arrival departure t) with none_ | some_
  · simp [none_]
  · rw [div_le_one (by exact_mod_cast some_)]
    exact_mod_cast some_

private theorem measurable_present : Measurable fun t => (present jobs arrival departure t : ℝ) := by
  have sum : (fun t => (present jobs arrival departure t : ℝ)) = fun t =>
      ∑ j ∈ jobs, if arrival j ≤ t ∧ (t : WithTop ℝ) < departure j then (1 : ℝ) else 0 := by
    funext t
    unfold present
    rw [Finset.card_filter]
    push_cast
    rfl
  rw [sum]
  apply Finset.measurable_fun_sum
  intro j _
  apply Measurable.ite _ measurable_const measurable_const
  cases departs : departure j with
  | top =>
    have set : {t : ℝ | arrival j ≤ t ∧ (t : WithTop ℝ) < ⊤} = Set.Ici (arrival j) := by
      ext t
      simp
    rw [set]
    exact measurableSet_Ici
  | coe d =>
    have set : {t : ℝ | arrival j ≤ t ∧ (t : WithTop ℝ) < (d : WithTop ℝ)} = Set.Ico (arrival j) d := by
      ext t
      simp
    rw [set]
    exact measurableSet_Ico

theorem rate_intervalIntegrable (a b : ℝ) : IntervalIntegrable (rate jobs arrival departure) volume a b := by
  have unit : IntervalIntegrable (fun _ : ℝ => (1 : ℝ)) volume a b := intervalIntegrable_const
  apply unit.mono_fun
  · exact (measurable_const.div measurable_present).aestronglyMeasurable
  · apply Filter.Eventually.of_forall
    intro t
    show ‖rate jobs arrival departure t‖ ≤ ‖(1 : ℝ)‖
    rw [Real.norm_of_nonneg (rate_nonneg t),norm_one]
    exact rate_le_one t

/-- The service of a time is that of any arrivals and departures with as many jobs present. -/
theorem integral_rate_congr {others : Finset Job} {arrival' : Job → ℝ} (before : a ≤ b)
    (same : ∀ t, a < t → t < b → present jobs arrival departure t = present others arrival' other t) :
    ∫ t in a..b, rate jobs arrival departure t = ∫ t in a..b, rate others arrival' other t := by
  apply intervalIntegral.integral_congr_Ioo_of_le before
  intro t inside
  unfold rate
  rw [same t inside.1 inside.2]

theorem integral_rate_add (a b c : ℝ) :
    ∫ t in a..b, rate jobs arrival departure t = (∫ t in a..c, rate jobs arrival departure t) +
      ∫ t in c..b, rate jobs arrival departure t :=
  (intervalIntegral.integral_add_adjacent_intervals (rate_intervalIntegrable a c) (rate_intervalIntegrable c b)).symm

/-- Service while the number of jobs stays the same. -/
theorem integral_rate_const {n : ℕ} (before : a ≤ b) (same : ∀ t, a < t → t < b →
    present jobs arrival departure t = n) :
    ∫ t in a..b, rate jobs arrival departure t = (b - a) / n := by
  have constant : ∫ t in a..b, rate jobs arrival departure t = ∫ _ in a..b, 1 / (n : ℝ) := by
    apply intervalIntegral.integral_congr_Ioo_of_le before
    intro t inside
    simp only [rate,same t inside.1 inside.2]
  rw [constant,intervalIntegral.integral_const,smul_eq_mul]
  ring

/-- A job that is present is served at no less than an equal share of all jobs. -/
theorem rate_ge_of_present {j : Job} (member : j ∈ jobs) {t : ℝ} (arrived : arrival j ≤ t)
    (stays : (t : WithTop ℝ) < departure j) : 1 / (jobs.card : ℝ) ≤ rate jobs arrival departure t := by
  have some_ : 0 < present jobs arrival departure t :=
    Finset.card_pos.mpr ⟨j,Finset.mem_filter.mpr ⟨member,arrived,stays⟩⟩
  have few : present jobs arrival departure t ≤ jobs.card := Finset.card_filter_le _ _
  unfold rate
  apply one_div_le_one_div_of_le
  · exact_mod_cast some_
  · exact_mod_cast few

/-- A job is served for some time while it is present. -/
theorem integral_rate_pos {j : Job} (member : j ∈ jobs) (before : a < b) (arrived : arrival j ≤ a)
    (stays : (b : WithTop ℝ) ≤ departure j) : 0 < ∫ t in a..b, rate jobs arrival departure t := by
  have share : 0 < 1 / (jobs.card : ℝ) := by
    have some_ : 0 < jobs.card := Finset.card_pos.mpr ⟨j,member⟩
    positivity
  have least : ∫ _ in a..b, 1 / (jobs.card : ℝ) ≤ ∫ t in a..b, rate jobs arrival departure t := by
    apply intervalIntegral.integral_mono_on_of_le_Ioo before.le intervalIntegrable_const (rate_intervalIntegrable a b)
    intro t inside
    apply rate_ge_of_present member (arrived.trans inside.1.le)
    exact lt_of_lt_of_le (WithTop.coe_lt_coe.mpr inside.2) stays
  rw [intervalIntegral.integral_const,smul_eq_mul] at least
  exact lt_of_lt_of_le (mul_pos (sub_pos.mpr before) share) least

end Rate

/-! ## Uniqueness -/

section Uniqueness
variable {jobs arrival} {demand departure other : Job → ℝ}

/-- Before the first time at which two departures of one job differ, the same jobs are present. -/
private theorem present_congr {t₀ : ℝ}
    (agree : ∀ j ∈ jobs, departure j ≠ other j → t₀ ≤ departure j ∧ t₀ ≤ other j) {t : ℝ} (before : t < t₀) :
    present jobs arrival (fun j => (departure j : WithTop ℝ)) t = present jobs arrival (fun j => (other j : WithTop ℝ)) t := by
  unfold present
  apply congrArg Finset.card
  apply Finset.filter_congr
  intro j member
  by_cases same : departure j = other j
  · simp only [same]
  · obtain ⟨first,second⟩ := agree j member same
    simp only [WithTop.coe_lt_coe,before.trans_le first,before.trans_le second]

/-- The job that departs first among those whose departures differ has had its service in the other one, too. -/
private theorem not_earlier (shares : Shares jobs arrival demand departure) (others : Shares jobs arrival demand other)
    {j : Job} (member : j ∈ jobs)
    (agree : ∀ k ∈ jobs, departure k ≠ other k → departure j ≤ departure k ∧ departure j ≤ other k) :
    ¬departure j < other j := by
  intro earlier
  have stays := shares.stays j member
  have same : ∫ t in arrival j..departure j, rate jobs arrival (fun j => (departure j : WithTop ℝ)) t =
      ∫ t in arrival j..departure j, rate jobs arrival (fun j => (other j : WithTop ℝ)) t :=
    integral_rate_congr stays fun t _ before => present_congr agree before
  have more : 0 < ∫ t in departure j..other j, rate jobs arrival (fun j => (other j : WithTop ℝ)) t :=
    integral_rate_pos member earlier stays le_rfl
  have split := @integral_rate_add _ jobs arrival (fun j => (other j : WithTop ℝ)) (arrival j) (other j) (departure j)
  rw [others.served j member,← same,shares.served j member] at split
  linarith

/-- Arrivals and demands determine the departures. -/
theorem departure_unique (shares : Shares jobs arrival demand departure) (others : Shares jobs arrival demand other) :
    ∀ j ∈ jobs, departure j = other j := by
  by_contra differ
  push Not at differ
  obtain ⟨witness,member,differs⟩ := differ
  have some_ : (jobs.filter fun j => departure j ≠ other j).Nonempty :=
    ⟨witness,Finset.mem_filter.mpr ⟨member,differs⟩⟩
  obtain ⟨j,found,least⟩ := Finset.exists_min_image _ (fun j => min (departure j) (other j)) some_
  obtain ⟨inside,unequal⟩ := Finset.mem_filter.mp found
  have first : ∀ k ∈ jobs, departure k ≠ other k →
      min (departure j) (other j) ≤ departure k ∧ min (departure j) (other j) ≤ other k := by
    intro k among apart
    exact le_min_iff.mp (least k (Finset.mem_filter.mpr ⟨among,apart⟩))
  rcases lt_or_gt_of_ne unequal with earlier | later
  · rw [min_eq_left earlier.le] at first
    exact not_earlier shares others inside first earlier
  · rw [min_eq_right later.le] at first
    refine not_earlier others shares inside ?_ later
    intro k among apart
    exact (first k among (Ne.symm apart)).symm

end Uniqueness

end Vexjine.FluidSharing
