import Mathlib.Tactic
import Mathlib.Order.Interval.Finset.SuccPred
import Mathlib.Data.Int.Interval

/-!
# Rearranged ranges of a memory

What a sort in place may do to a range of a memory: move its values about, and leave the rest alone.
-/

namespace Vexjine.Rearrangements

variable {Value : Type*} {low middle high a b : ℤ} {before during after : ℤ → Value}

/-- The memory is the old one behind a permutation that moves nothing outside the range. -/
def Rearranged (low high : ℤ) (before after : ℤ → Value) : Prop :=
  ∃ moves : Equiv.Perm ℤ, after = before ∘ moves ∧ ∀ k, ¬ (low ≤ k ∧ k < high) → moves k = k

def swapped (data : ℤ → Value) (a b : ℤ) : ℤ → Value := data ∘ Equiv.swap a b

/-- The values of the range, in order. -/
def values (data : ℤ → Value) (low high : ℤ) : List Value :=
  (List.range (high - low).toNat).map fun k : ℕ => data (low + k)

@[simp] theorem swapped_left (data : ℤ → Value) (a b : ℤ) : swapped data a b a = data b := by simp [swapped]

@[simp] theorem swapped_right (data : ℤ → Value) (a b : ℤ) : swapped data a b b = data a := by simp [swapped]

theorem swapped_of_ne (data : ℤ → Value) {k : ℤ} (left : k ≠ a) (right : k ≠ b) : swapped data a b k = data k := by
  rw [swapped,Function.comp_apply,Equiv.swap_apply_of_ne_of_ne left right]

namespace Rearranged

theorem refl (data : ℤ → Value) : Rearranged low high data data := ⟨1,rfl,fun _ _ => rfl⟩

theorem trans (first : Rearranged low high before during) (second : Rearranged low high during after) :
    Rearranged low high before after := by
  obtain ⟨moves,rfl,fixes⟩ := first
  obtain ⟨next,rfl,nextFixes⟩ := second
  refine ⟨next.trans moves,rfl,fun k outside => ?_⟩
  rw [Equiv.trans_apply,nextFixes k outside,fixes k outside]

theorem mono (part : Rearranged a b before after) (low_le : low ≤ a) (le_high : b ≤ high) :
    Rearranged low high before after := by
  obtain ⟨moves,same,fixes⟩ := part
  exact ⟨moves,same,fun k outside => fixes k (by omega)⟩

theorem swapped (data : ℤ → Value) (left : low ≤ a ∧ a < high) (right : low ≤ b ∧ b < high) :
    Rearranged low high data (swapped data a b) := by
  refine ⟨Equiv.swap a b,rfl,fun k outside => Equiv.swap_apply_of_ne_of_ne ?_ ?_⟩
  · rintro rfl; exact outside left
  · rintro rfl; exact outside right

theorem outside (rearranged : Rearranged low high before after) {k : ℤ} (away : ¬ (low ≤ k ∧ k < high)) :
    after k = before k := by
  obtain ⟨moves,rfl,fixes⟩ := rearranged
  rw [Function.comp_apply,fixes k away]

/-- What all values of the range satisfy they satisfy afterwards. -/
theorem forall_inside (rearranged : Rearranged low high before after) (Law : Value → Prop)
    (law : ∀ k, low ≤ k → k < high → Law (before k)) {k : ℤ} (low_le : low ≤ k) (lt_high : k < high) :
    Law (after k) := by
  obtain ⟨moves,rfl,fixes⟩ := rearranged
  have stays : low ≤ moves k ∧ moves k < high := by
    by_contra away
    have same : moves k = k := moves.injective (fixes (moves k) away)
    rw [same] at away
    exact away ⟨low_le,lt_high⟩
  exact law (moves k) stays.1 stays.2

theorem values_perm (rearranged : Rearranged low high before after) :
    (values after low high).Perm (values before low high) := by
  obtain ⟨moves,rfl,fixes⟩ := rearranged
  have multiset : ∀ data : ℤ → Value, (↑(values data low high) : Multiset Value) =
      (Finset.Ico low high).val.map data := fun data => by
    have indices : (Finset.Ico low high).val = (List.range (high - low).toNat).map fun k : ℕ => low + (k : ℤ) := rfl
    rw [indices,Multiset.map_coe,List.map_map,values]
    rfl
  have moved : (Finset.Ico low high).map moves = Finset.Ico low high := by
    refine Finset.map_perm fun k different => ?_
    by_contra away
    exact different (fixes k fun inside => away (by simpa using inside))
  rw [← Multiset.coe_eq_coe,multiset,multiset,← Multiset.map_map]
  conv_rhs => rw [← moved]
  rfl

end Rearranged

/-- The values of the range do not fall. -/
def SortedOn [Preorder Value] (data : ℤ → Value) (low high : ℤ) : Prop :=
  ∀ a b, low ≤ a → a ≤ b → b < high → data a ≤ data b

theorem sortedOn_of_le_one [Preorder Value] {data : ℤ → Value} (few : high ≤ low + 1) : SortedOn data low high := by
  intro a b low_le le lt_high
  have same : a = b := by omega
  rw [same]

theorem SortedOn.congr [Preorder Value] (sorted : SortedOn before low high)
    (same : ∀ k, low ≤ k → k < high → after k = before k) : SortedOn after low high := by
  intro a b low_le le lt_high
  rw [same a low_le (by omega),same b (by omega) lt_high]
  exact sorted a b low_le le lt_high

theorem SortedOn.pairwise_values [Preorder Value] {data : ℤ → Value} (sorted : SortedOn data low high) :
    (values data low high).Pairwise (· ≤ ·) := by
  rw [values,List.pairwise_map]
  refine List.pairwise_lt_range.imp_of_mem fun {first second} _ member lt => ?_
  have inside := List.mem_range.mp member
  exact sorted _ _ (by omega) (by omega) (by omega)

/-- Two sorted parts with a value between them. -/
theorem SortedOn.join [Preorder Value] {data : ℤ → Value} (left : SortedOn data low middle)
    (right : SortedOn data (middle + 1) high) (below : ∀ k, low ≤ k → k < middle → data k ≤ data middle)
    (above : ∀ k, middle < k → k < high → data middle ≤ data k) : SortedOn data low high := by
  intro a b low_le le lt_high
  rcases lt_trichotomy b middle with bLeft | rfl | bRight
  · exact left a b low_le le bLeft
  · rcases le.lt_or_eq with lt | rfl
    exacts [below a low_le lt,le_rfl]
  · rcases lt_trichotomy a middle with aLeft | rfl | aRight
    · exact (below a low_le aLeft).trans (above b bRight lt_high)
    · exact above b bRight lt_high
    · exact right a b aRight le lt_high

end Vexjine.Rearrangements
