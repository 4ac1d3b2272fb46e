import Mathlib.Tactic
import Mathlib.Order.Bounds.Basic

/-!
# Scans for the least and the greatest value

The loop that walks a list, keeps the best value seen so far and starts from a
given one. `least` only looks at selected entries and starts from a ceiling;
`greatest` looks at all of them.
-/

namespace Vexjine.Scans

variable {Index Value : Type*} [LinearOrder Value]

/-- The least selected value below the ceiling, or the ceiling itself. -/
def least (selected : Index → Bool) (value : Index → Value) (ceiling : Value) (indices : List Index) : Value :=
  indices.foldl (fun best index => if selected index && decide (value index < best) then value index else best) ceiling

/-- The greatest value, starting from a given one. -/
def greatest (value : Index → Value) (start : Value) (indices : List Index) : Value :=
  indices.foldl (fun best index => if value index > best then value index else best) start

/-- The first index of least value, starting from a given one. -/
def leastIndex (value : Index → Value) (start : Index) (indices : List Index) : Index :=
  indices.foldl (fun best index => if value best > value index then index else best) start

section Least
variable (selected : Index → Bool) (value : Index → Value)

theorem least_cons (ceiling : Value) (index : Index) (rest : List Index) :
    least selected value ceiling (index :: rest) =
      least selected value (if selected index && decide (value index < ceiling) then value index else ceiling) rest := rfl

/-- Below the scan's result lies exactly what lies below the ceiling and every selected value. -/
theorem le_least_iff (ceiling bound : Value) (indices : List Index) :
    bound ≤ least selected value ceiling indices ↔
      bound ≤ ceiling ∧ ∀ index ∈ indices, selected index = true → bound ≤ value index := by
  induction indices generalizing ceiling with
  | nil => simp [least]
  | cons index rest ih =>
    rw [least_cons,ih]
    simp only [List.mem_cons,forall_eq_or_imp]
    by_cases better : selected index = true ∧ value index < ceiling
    · rw [if_pos (by simpa using better)]
      constructor
      · rintro ⟨below,others⟩
        exact ⟨below.trans better.2.le,fun _ => below,others⟩
      · rintro ⟨-,below,others⟩
        exact ⟨below better.1,others⟩
    · rw [if_neg (by simpa using better)]
      constructor
      · rintro ⟨below,others⟩
        refine ⟨below,fun isSelected => ?_,others⟩
        exact below.trans (not_lt.mp fun smaller => better ⟨isSelected,smaller⟩)
      · rintro ⟨below,-,others⟩
        exact ⟨below,others⟩

theorem least_le_ceiling (ceiling : Value) (indices : List Index) :
    least selected value ceiling indices ≤ ceiling :=
  ((le_least_iff selected value ceiling _ indices).mp le_rfl).1

theorem least_le {ceiling : Value} {indices : List Index} {index : Index} (member : index ∈ indices)
    (isSelected : selected index = true) : least selected value ceiling indices ≤ value index :=
  ((le_least_iff selected value ceiling _ indices).mp le_rfl).2 index member isSelected

/-- The result is the ceiling or the value of a selected entry. -/
theorem least_attained (ceiling : Value) (indices : List Index) :
    least selected value ceiling indices = ceiling ∨
      ∃ index ∈ indices, selected index = true ∧ value index = least selected value ceiling indices := by
  induction indices generalizing ceiling with
  | nil => exact .inl rfl
  | cons index rest ih =>
    rw [least_cons]
    by_cases better : selected index = true ∧ value index < ceiling
    · rw [if_pos (by simpa using better)]
      rcases ih (value index) with reached | ⟨other,member,found⟩
      · exact .inr ⟨index,by simp,better.1,reached.symm⟩
      · exact .inr ⟨other,by simp [member],found⟩
    · rw [if_neg (by simpa using better)]
      rcases ih ceiling with reached | ⟨other,member,found⟩
      · exact .inl reached
      · exact .inr ⟨other,by simp [member],found⟩

/-- With a selected value below the ceiling, the scan finds the least of the selected values. -/
theorem least_isLeast {ceiling : Value} {indices : List Index} {index : Index} (member : index ∈ indices)
    (isSelected : selected index = true) (below : value index < ceiling) :
    IsLeast { result | ∃ other ∈ indices, selected other = true ∧ value other = result }
      (least selected value ceiling indices) := by
  constructor
  · rcases least_attained selected value ceiling indices with reached | ⟨other,inside,found⟩
    · have smaller : least selected value ceiling indices ≤ value index := least_le selected value member isSelected
      rw [reached] at smaller
      exact absurd below (not_lt.mpr smaller)
    · exact ⟨other,inside,found⟩
  · rintro result ⟨other,inside,chosen,rfl⟩
    exact least_le selected value inside chosen

end Least

/-- The scan for the greatest value bounds its start and every entry. -/
theorem greatest_le_iff (value : Index → Value) (start bound : Value) (indices : List Index) :
    greatest value start indices ≤ bound ↔ start ≤ bound ∧ ∀ index ∈ indices, value index ≤ bound := by
  induction indices generalizing start with
  | nil => simp [greatest]
  | cons index rest ih =>
    change greatest value (if value index > start then value index else start) rest ≤ bound ↔ _
    rw [ih]
    simp only [List.mem_cons,forall_eq_or_imp]
    by_cases better : start < value index
    · rw [if_pos better]
      exact ⟨fun ⟨below,others⟩ => ⟨better.le.trans below,below,others⟩,fun ⟨_,below,others⟩ => ⟨below,others⟩⟩
    · rw [if_neg better]
      exact ⟨fun ⟨below,others⟩ => ⟨below,(not_lt.mp better).trans below,others⟩,fun ⟨below,_,others⟩ => ⟨below,others⟩⟩

theorem greatest_attained (value : Index → Value) (start : Value) (indices : List Index) :
    greatest value start indices = start ∨ ∃ index ∈ indices, value index = greatest value start indices := by
  induction indices generalizing start with
  | nil => exact .inl rfl
  | cons index rest ih =>
    change greatest value (if value index > start then value index else start) rest = start ∨
      ∃ other ∈ index :: rest, value other =
        greatest value (if value index > start then value index else start) rest
    by_cases better : start < value index
    · rw [if_pos better]
      rcases ih (value index) with reached | ⟨other,member,found⟩
      · exact .inr ⟨index,by simp,reached.symm⟩
      · exact .inr ⟨other,by simp [member],found⟩
    · rw [if_neg better]
      rcases ih start with reached | ⟨other,member,found⟩
      · exact .inl reached
      · exact .inr ⟨other,by simp [member],found⟩

/-- The first index of least value is its start or an entry, and no value lies below it. -/
theorem leastIndex_le (value : Index → Value) (start : Index) (indices : List Index) :
    value (leastIndex value start indices) ≤ value start ∧
      ∀ index ∈ indices, value (leastIndex value start indices) ≤ value index := by
  induction indices generalizing start with
  | nil => simp [leastIndex]
  | cons index rest ih =>
    change value (leastIndex value (if value start > value index then index else start) rest) ≤ value start ∧
      ∀ other ∈ index :: rest,
        value (leastIndex value (if value start > value index then index else start) rest) ≤ value other
    simp only [List.mem_cons,forall_eq_or_imp]
    by_cases better : value index < value start
    · rw [if_pos better]
      obtain ⟨below,others⟩ := ih index
      exact ⟨below.trans better.le,below,others⟩
    · rw [if_neg better]
      obtain ⟨below,others⟩ := ih start
      exact ⟨below,below.trans (not_lt.mp better),others⟩

theorem leastIndex_mem (value : Index → Value) (start : Index) (indices : List Index) :
    leastIndex value start indices = start ∨ leastIndex value start indices ∈ indices := by
  induction indices generalizing start with
  | nil => exact .inl rfl
  | cons index rest ih =>
    change leastIndex value (if value start > value index then index else start) rest = start ∨
      leastIndex value (if value start > value index then index else start) rest ∈ index :: rest
    rcases ih (if value start > value index then index else start) with reached | member
    · rw [reached]
      split_ifs
      exacts [.inr List.mem_cons_self,.inl rfl]
    · exact .inr (List.mem_cons_of_mem index member)

section FirstAnswer
variable {Answer : Type*} (answer : Index → Option Answer)

/-- A scan that returns its first answer gives the same whatever the order of the entries exactly if no two of them
    answer differently. -/
theorem firstAnswer_order_free_iff (indices : List Index) :
    (∀ first second : List Index, first.Perm indices → second.Perm indices →
      first.findSome? answer = second.findSome? answer) ↔
      ∀ one ∈ indices, ∀ other ∈ indices, ∀ a ∈ answer one, ∀ b ∈ answer other, a = b := by
  have front : ∀ index ∈ indices, ∃ rest : List Index, (index :: rest).Perm indices := by
    intro index member
    obtain ⟨before,after,rfl⟩ := List.append_of_mem member
    exact ⟨before ++ after,List.perm_middle.symm⟩
  constructor
  · intro free one inOne other inOther a answersA b answersB
    obtain ⟨restOne,permOne⟩ := front one inOne
    obtain ⟨restOther,permOther⟩ := front other inOther
    have same := free _ _ permOne permOther
    rw [Option.mem_def] at answersA answersB
    rw [List.findSome?_cons,List.findSome?_cons,answersA,answersB] at same
    exact Option.some.inj same
  · intro agree first second permFirst permSecond
    cases found : first.findSome? answer with
    | none =>
      symm
      rw [List.findSome?_eq_none_iff] at found ⊢
      intro index member
      exact found index ((permFirst.trans permSecond.symm).mem_iff.mpr member)
    | some a =>
      obtain ⟨one,inFirst,answersA⟩ := List.exists_of_findSome?_eq_some found
      cases foundToo : second.findSome? answer with
      | none =>
        rw [List.findSome?_eq_none_iff] at foundToo
        have silent := foundToo one ((permFirst.trans permSecond.symm).mem_iff.mp inFirst)
        rw [answersA] at silent
        cases silent
      | some b =>
        obtain ⟨other,inSecond,answersB⟩ := List.exists_of_findSome?_eq_some foundToo
        rw [agree one (permFirst.mem_iff.mp inFirst) other (permSecond.mem_iff.mp inSecond) a answersA b answersB]

end FirstAnswer

end Vexjine.Scans
