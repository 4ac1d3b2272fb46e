import Vexjine.Reports

/-!
# Orders of pointers to measures

Lists and vectors of pointers to measures are sorted by comparators that check both pointers for `NULL` first.
Sorting asks for strict weak orders.
-/

namespace Vexjine.MeasureOrders
open Vexjine.MethodLogs Vexjine.MethodEvents Vexjine.Reports

/-! ## Descending values -/

section Values
variable {Element Value : Type*} [LinearOrder Value] {before : Element → Element → Prop}

/-- Elements whose values descend. -/
theorem isStrictWeakOrder_of_value (value : Element → Value)
    (descends : ∀ first second, before first second ↔ value second < value first) : IsStrictWeakOrder Element before where
  irrefl element := by
    rw [descends]
    exact lt_irrefl _
  trans first second third := by
    simp only [descends]
    intro high low
    exact low.trans high
  incomp_trans first second third := by
    simp only [descends,not_lt]
    rintro ⟨le,ge⟩ ⟨leNext,geNext⟩
    exact ⟨le.trans leNext,geNext.trans ge⟩

end Values

/-! ## Comparators -/

/-- `none` is `NULL`. -/
abbrev Pointer := Option Nat

/-- The checks that all comparators make before they compare the measures. -/
def comparePointers (compare : PerformanceMeasure → PerformanceMeasure → Bool) (memory : Memory) : Pointer → Pointer → Bool
  | none, none => true
  | none, some _ => false
  | some _, none => false
  | some first, some second => compare (memory first) (memory second)

def compare_PerformanceMeasure := comparePointers Reports.compare_PerformanceMeasure

def compare_PerformanceMeasureExclusiveTimes := comparePointers Reports.compare_PerformanceMeasureExclusiveTimes

def compare_PerformanceMeasureInvocations := comparePointers Reports.compare_PerformanceMeasureInvocations

def compare_PerformanceMeasureTotalTime := comparePointers Reports.compare_PerformanceMeasureTotalTime

/-- What sorting requires of a comparator, on the measures that it is used for. A strict weak order is irreflexive and
    transitive, and so is being incomparable. -/
structure Sorts (compare : Pointer → Pointer → Bool) (measures : Set Pointer) : Prop where
  asymmetric : Std.Asymm fun first second : measures => compare first second = true
  strictWeakOrder : IsStrictWeakOrder measures fun first second => compare first second = true

section Sets
variable {compare : PerformanceMeasure → PerformanceMeasure → Bool} {Value : Type*} [LinearOrder Value]

private def valueBehind (value : PerformanceMeasure → Value) (memory : Memory) : Pointer → WithBot Value
  | none => ⊥
  | some measure => value (memory measure)

/-- A comparator by a value of the measures. -/
private theorem sorts_iff (value : PerformanceMeasure → Value)
    (descends : ∀ first second, compare first second = true ↔ value second < value first) (memory : Memory)
    (measures : Set Pointer) : Sorts (comparePointers compare memory) measures ↔ none ∉ measures := by
  constructor
  · intro sorts null
    have irreflexive := sorts.strictWeakOrder.irrefl ⟨none,null⟩
    exact irreflexive rfl
  · intro noNull
    have ordered : IsStrictWeakOrder measures fun first second => comparePointers compare memory first second = true := by
      refine isStrictWeakOrder_of_value (fun pointer => valueBehind value memory pointer.1) ?_
      rintro ⟨first,member⟩ ⟨second,otherMember⟩
      obtain ⟨measure,rfl⟩ := Option.ne_none_iff_exists'.mp fun null : first = none => noNull (null ▸ member)
      obtain ⟨other,rfl⟩ := Option.ne_none_iff_exists'.mp fun null : second = none => noNull (null ▸ otherMember)
      exact (descends _ _).trans WithBot.coe_lt_coe.symm
    exact ⟨⟨fun _ _ high low => ordered.irrefl _ (ordered.trans _ _ _ high low)⟩,ordered⟩

end Sets

/-- Null pointers come before themselves, so that no set with one is in order. -/
theorem comparators_sort_iff (memory : Memory) (measures : Set Pointer) :
    (Sorts (compare_PerformanceMeasure memory) measures ↔ none ∉ measures) ∧
    (Sorts (compare_PerformanceMeasureExclusiveTimes memory) measures ↔ none ∉ measures) ∧
    (Sorts (compare_PerformanceMeasureInvocations memory) measures ↔ none ∉ measures) ∧
    (Sorts (compare_PerformanceMeasureTotalTime memory) measures ↔ none ∉ measures) := by
  refine ⟨?_,?_,?_,?_⟩
  · exact sorts_iff (fun measure => getMean measure (measure.inclusive .estimatedRealTime))
      (fun _ _ => decide_eq_true_iff) memory measures
  · exact sorts_iff (fun measure => measure.exclusive .cpu) (fun _ _ => decide_eq_true_iff) memory measures
  · exact sorts_iff MethodEvents.PerformanceMeasure.samples (fun _ _ => decide_eq_true_iff) memory measures
  · exact sorts_iff (fun measure => measure.inclusive .cpu) (fun _ _ => decide_eq_true_iff) memory measures

/-- A vector with a measure and a null pointer. -/
theorem totalTime_not_irreflexive :
    ¬ ∀ (memory : Memory) (measures : Set Pointer), Sorts (compare_PerformanceMeasureTotalTime memory) measures := by
  intro all
  have sorts := all ioLogger.memory {some 0,none}
  exact sorts.strictWeakOrder.irrefl ⟨none,by simp⟩ rfl

end Vexjine.MeasureOrders
