import Mathlib.MeasureTheory.Integral.IntervalIntegral.Basic
import Mathlib.Algebra.BigOperators.Group.List.Basic
import Mathlib.Algebra.Order.BigOperators.Group.List
import Mathlib.Tactic.LinearCombination
import Mathlib.Tactic.Ring

/-!
# Areas over the time

The area under a value that changes now and then: as the integral of a step function, and as
the sum of the stays of those that the value counts.
-/

/-! ## Step functions of recorded changes

A list of changes, each a time and the value from then on, defines a function of the time that is 0
before the first change. The newest change stands first. -/

namespace Vexjine.StepFunctions
open MeasureTheory

/-- The value at a moment: that of the newest change that is not later. -/
noncomputable def valueAt : List (ℝ × ℝ) → ℝ → ℝ
  | [], _ => 0
  | (changed,value) :: before, moment => if changed ≤ moment then value else valueAt before moment

/-- The last change, a 0 at time 0 when there is none. -/
def last {Time : Type*} [Zero Time] (changes : List (Time × Time)) : Time × Time := changes.headD (0,0)

variable {changes : List (ℝ × ℝ)} {changed value start finish moment : ℝ}

theorem valueAt_of_last_le (later : (last changes).1 ≤ moment) : valueAt changes moment = (last changes).2 := by
  cases changes with
  | nil => rfl
  | cons newest before => exact if_pos later

theorem valueAt_cons_of_lt (earlier : moment < changed) :
    valueAt ((changed,value) :: changes) moment = valueAt changes moment := if_neg earlier.not_ge

theorem integrableOn_valueAt (changes : List (ℝ × ℝ)) (start finish : ℝ) :
    IntegrableOn (valueAt changes) (Set.Ioc start finish) := by
  induction changes with
  | nil => exact integrableOn_zero
  | cons newest before ih =>
    obtain ⟨changed,value⟩ := newest
    have pieces : valueAt ((changed,value) :: before) =
        (Set.Ici changed).piecewise (fun _ => value) (valueAt before) := by
      funext moment
      simp only [valueAt,Set.piecewise,Set.mem_Ici]
    rw [pieces]
    have constant : IntegrableOn (fun _ => value) (Set.Ioc start finish) :=
      integrableOn_const (by simp)
    exact Integrable.piecewise measurableSet_Ici constant.integrableOn ih.integrableOn

theorem intervalIntegrable_valueAt (changes : List (ℝ × ℝ)) (start finish : ℝ) :
    IntervalIntegrable (valueAt changes) volume start finish :=
  ⟨integrableOn_valueAt changes start finish,integrableOn_valueAt changes finish start⟩

/-- From the last change on the function is constant. -/
theorem integral_valueAt_of_last_le (later : (last changes).1 ≤ start) (forward : start ≤ finish) :
    ∫ moment in start..finish, valueAt changes moment = (last changes).2 * (finish - start) := by
  have constant : ∫ moment in start..finish, valueAt changes moment =
      ∫ _ in start..finish, (last changes).2 :=
    intervalIntegral.integral_congr fun moment inside => by
      rw [Set.uIcc_of_le forward] at inside
      exact valueAt_of_last_le (later.trans inside.1)
  rw [constant,intervalIntegral.integral_const,smul_eq_mul,mul_comm]

/-- A change leaves what was before it. -/
theorem integral_valueAt_cons_of_le (forward : start ≤ finish) (earlier : finish ≤ changed) :
    ∫ moment in start..finish, valueAt ((changed,value) :: changes) moment =
      ∫ moment in start..finish, valueAt changes moment :=
  intervalIntegral.integral_congr_Ioo_of_le forward fun _ inside =>
    valueAt_cons_of_lt (inside.2.trans_le earlier)

/-- The area up to a moment behind the last change. -/
theorem integral_valueAt_split (later : (last changes).1 ≤ moment) (forward : moment ≤ finish) :
    ∫ time in start..finish, valueAt changes time =
      (∫ time in start..moment, valueAt changes time) + (last changes).2 * (finish - moment) := by
  rw [← integral_valueAt_of_last_le later forward]
  exact (intervalIntegral.integral_add_adjacent_intervals (intervalIntegrable_valueAt changes start moment)
    (intervalIntegrable_valueAt changes moment finish)).symm

end Vexjine.StepFunctions

/-! ## The time that visitors stay

A place adds up the area under the number of its visitors whenever that number changes, and the stays of those that
have left. Whatever the order in which they leave, and whichever way the clock goes, the area up to any moment is
the sum of the stays, those of the present visitors up to that moment. -/

namespace Vexjine.Sojourns

variable {Time : Type} [Field Time] {area area' change total total' now : Time} {entries entries' : List Time}

/-- The stays up to a moment of visitors with these times of entry. -/
def stays (entries : List Time) (now : Time) : Time := (entries.map fun entry => now - entry).sum

/-- At every moment the area, with what has been added to it since the last change, is the total of the stays. -/
def Balanced (area change : Time) (entries : List Time) (total : Time) : Prop :=
  ∀ now, area + entries.length * (now - change) = total + stays entries now

@[simp] theorem stays_nil (now : Time) : stays [] now = 0 := rfl

@[simp] theorem stays_cons (entry : Time) (entries : List Time) (now : Time) :
    stays (entry :: entries) now = now - entry + stays entries now := by
  rw [stays,List.map_cons,List.sum_cons,stays]

theorem stays_perm (arranged : entries.Perm entries') (now : Time) : stays entries now = stays entries' now :=
  (arranged.map _).sum_eq

/-- Everyone present stays equally long. -/
theorem stays_later (entries : List Time) (now later : Time) :
    stays entries later = stays entries now + entries.length * (later - now) := by
  induction entries with
  | nil => simp
  | cons entry rest ih =>
    rw [stays_cons,stays_cons,ih,List.length_cons,Nat.cast_succ]
    ring

theorem balanced_nil (change : Time) : Balanced 0 change [] 0 := by
  intro now
  simp

theorem Balanced.perm (balanced : Balanced area change entries total) (arranged : entries.Perm entries') :
    Balanced area change entries' total := by
  intro now
  rw [← arranged.length_eq,← stays_perm arranged]
  exact balanced now

/-- The area may be brought up to date at any moment. -/
theorem Balanced.update (balanced : Balanced area change entries total) (now : Time) :
    Balanced (area + entries.length * (now - change)) now entries total := by
  intro later
  rw [balanced now,stays_later entries now later]
  ring

theorem Balanced.enter (balanced : Balanced area change entries total) (now : Time) :
    Balanced (area + entries.length * (now - change)) now (now :: entries) total := by
  intro later
  rw [stays_cons,List.length_cons,Nat.cast_succ]
  linear_combination balanced.update now later

/-- The stay of one that leaves is added to the total. -/
theorem Balanced.leave {entry : Time} (balanced : Balanced area change entries total)
    (present : entries.Perm (entry :: entries')) (now : Time) :
    Balanced (area + entries.length * (now - change)) now entries' (total + (now - entry)) := by
  intro later
  have whole := (balanced.perm present).update now later
  rw [stays_cons,List.length_cons,Nat.cast_succ] at whole
  rw [present.length_eq,List.length_cons,Nat.cast_succ]
  linear_combination whole

/-- A visitor that leaves may be replaced at once. -/
theorem Balanced.replace {entry : Time} (balanced : Balanced area change entries total)
    (present : entries.Perm (entry :: entries')) (now : Time) :
    Balanced area change (now :: entries') (total + (now - entry)) := by
  intro later
  have whole := balanced.perm present later
  rw [stays_cons,List.length_cons] at whole ⊢
  linear_combination whole

/-- When the area and the total are cleared while visitors are present, what they have stayed until the last change is
    missing in the area. -/
theorem balanced_cleared (change : Time) (entries : List Time) : Balanced 0 change entries (-stays entries change) := by
  intro now
  rw [stays_later entries change now]
  ring

end Vexjine.Sojourns
