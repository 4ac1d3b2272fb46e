import Mathlib.Tactic
import Mathlib.Data.List.Sort
import Mathlib.Data.List.TakeWhile

/-!
# Heaps and sorted lists

Containers that give out the element of the least key: binary heaps in level order, and lists into
which elements are inserted behind the ones of no greater key.
-/

/-! ## Binary heaps over mutable keys

A heap stores its elements in level order: the children of position `i` are at
`2 * i + 1` and `2 * i + 2`, and no key is above those of its children. The keys are a
parameter, since they may change while the elements are stored. The algorithms
that keep the order are taken by their contracts, on valid heaps only. -/

namespace Vexjine.Heaps

variable {Element Key : Type*} [LinearOrder Key]

def IsHeap (key : Element → Key) (elements : List Element) : Prop :=
  ∀ index parent child, elements[index]? = some parent →
    (elements[2 * index + 1]? = some child ∨ elements[2 * index + 2]? = some child) → key parent ≤ key child

/-- A valid heap with its least key on top. -/
def TopLeast (key : Element → Key) (elements : List Element) : Prop :=
  IsHeap key elements ∧ ∀ top ∈ elements.head?, ∀ element ∈ elements, key top ≤ key element

section Rules
variable {key other : Element → Key} {elements : List Element}

theorem isHeap_nil : IsHeap key ([] : List Element) := fun _ _ _ found => by simp at found

/-- By induction on the position: the parent of each position but the first is at a smaller one. -/
private theorem top_le_at {top : Element} (heap : IsHeap key elements) (first : elements[0]? = some top) (index : Nat) :
    ∀ element, elements[index]? = some element → key top ≤ key element := by
  induction index using Nat.strong_induction_on with
  | h index ih =>
    intro element found
    rcases Nat.eq_zero_or_pos index with rfl | positive
    · rw [first] at found
      cases found
      exact le_rfl
    · have inside : (index - 1) / 2 < elements.length := by
        have bound := (List.getElem?_eq_some_iff.mp found).1
        omega
      have parentFound := List.getElem?_eq_getElem inside
      have child : index = 2 * ((index - 1) / 2) + 1 ∨ index = 2 * ((index - 1) / 2) + 2 := by omega
      have stepUp : key elements[(index - 1) / 2] ≤ key element := by
        refine heap ((index - 1) / 2) _ element parentFound ?_
        rcases child with left | right
        · exact .inl (by rwa [← left])
        · exact .inr (by rwa [← right])
      exact (ih ((index - 1) / 2) (by omega) _ parentFound).trans stepUp

theorem topLeast_of_isHeap (heap : IsHeap key elements) : TopLeast key elements := by
  refine ⟨heap,fun top first element member => ?_⟩
  obtain ⟨index,found⟩ := List.mem_iff_getElem?.mp member
  exact top_le_at heap (List.head?_eq_getElem? ▸ first) index element found

/-- Only the keys of the stored elements matter. -/
theorem isHeap_congr (agree : ∀ element ∈ elements, key element = other element) :
    IsHeap key elements ↔ IsHeap other elements := by
  refine forall₅_congr fun index parent child parentFound childFound => ?_
  rw [agree parent (List.mem_of_getElem? parentFound),
    agree child (childFound.elim List.mem_of_getElem? List.mem_of_getElem?)]

theorem isHeap_update [DecidableEq Element] {element : Element} (absent : element ∉ elements) (value : Key) :
    IsHeap (Function.update key element value) elements ↔ IsHeap key elements := by
  refine isHeap_congr fun stored member => Function.update_of_ne ?_ value key
  rintro rfl
  exact absent member

/-- Ascending lists are heaps. -/
theorem isHeap_of_pairwise (ascending : elements.Pairwise fun first second => key first ≤ key second) :
    IsHeap key elements := by
  intro index parent child parentFound childFound
  obtain ⟨parentInside,rfl⟩ := List.getElem?_eq_some_iff.mp parentFound
  rcases childFound with found | found <;>
  · obtain ⟨childInside,rfl⟩ := List.getElem?_eq_some_iff.mp found
    exact List.pairwise_iff_getElem.mp ascending _ _ parentInside childInside (by omega)

end Rules

/-! ### The algorithms -/

/-- Making a heap, pushing into one and popping its top. Nothing is said about pushes and pops
    on lists that are no heap. -/
structure HeapAlgorithms (Element Key : Type*) [LinearOrder Key] where
  makeHeap : (Element → Key) → List Element → List Element
  pushHeap : (Element → Key) → Element → List Element → List Element
  popHeap : (Element → Key) → List Element → List Element
  makeHeap_isHeap (key : Element → Key) (elements : List Element) : IsHeap key (makeHeap key elements)
  makeHeap_perm (key : Element → Key) (elements : List Element) : (makeHeap key elements).Perm elements
  pushHeap_isHeap {key : Element → Key} {elements : List Element} (element : Element) :
    IsHeap key elements → IsHeap key (pushHeap key element elements)
  pushHeap_perm {key : Element → Key} {elements : List Element} (element : Element) :
    IsHeap key elements → (pushHeap key element elements).Perm (element :: elements)
  popHeap_isHeap {key : Element → Key} {elements : List Element} :
    IsHeap key elements → IsHeap key (popHeap key elements)
  popHeap_perm {key : Element → Key} {elements : List Element} :
    IsHeap key elements → (popHeap key elements).Perm elements.tail

namespace HeapAlgorithms

private theorem insertionSort_isHeap (key : Element → Key) (elements : List Element) :
    IsHeap key (elements.insertionSort fun first second => key first ≤ key second) := by
  have : Std.Total fun first second : Element => key first ≤ key second := ⟨fun first second => le_total _ _⟩
  have : IsTrans Element fun first second => key first ≤ key second := ⟨fun _ _ _ => le_trans⟩
  exact isHeap_of_pairwise (List.pairwise_insertionSort _ elements)

/-- Heaps that are always ascending. -/
def ascending : HeapAlgorithms Element Key where
  makeHeap key elements := elements.insertionSort fun first second => key first ≤ key second
  pushHeap key element elements := (element :: elements).insertionSort fun first second => key first ≤ key second
  popHeap key elements := elements.tail.insertionSort fun first second => key first ≤ key second
  makeHeap_isHeap := insertionSort_isHeap
  makeHeap_perm _ elements := List.perm_insertionSort _ elements
  pushHeap_isHeap _ _ := insertionSort_isHeap _ _
  pushHeap_perm _ _ := List.perm_insertionSort _ _
  popHeap_isHeap _ := insertionSort_isHeap _ _
  popHeap_perm _ := List.perm_insertionSort _ _

end HeapAlgorithms

end Vexjine.Heaps

/-! ## Insertion into a sorted list

An entry is inserted behind the first entries that pass a test. Where they are those that it
does not come before, a sorted list stays sorted, with entries of one key in the order of
their arrival. -/

namespace Vexjine.Insertions

variable {Entry Key : Type*} [LinearOrder Key] {key : Entry → Key} {e : Entry} {entries : List Entry}

theorem perm_insertion (passes : Entry → Bool) (e : Entry) (entries : List Entry) :
    (entries.takeWhile passes ++ e :: entries.dropWhile passes).Perm (e :: entries) := by
  have moved := @List.perm_middle _ e (entries.takeWhile passes) (entries.dropWhile passes)
  rwa [List.takeWhile_append_dropWhile] at moved

/-- Behind the place of insertion everything is later. -/
theorem later_of_dropWhile (sorted : entries.Pairwise fun x y => key x ≤ key y) :
    ∀ other ∈ entries.dropWhile fun x => decide (key x ≤ key e), key e < key other := by
  induction entries with
  | nil =>
    intro other member
    cases member
  | cons first rest ih =>
    obtain ⟨after,remaining⟩ := List.pairwise_cons.mp sorted
    by_cases passes : key first ≤ key e
    · rw [List.dropWhile_cons_of_pos (by simpa using passes)]
      exact ih remaining
    · rw [List.dropWhile_cons_of_neg (by simpa using passes)]
      have first_later : key e < key first := lt_of_not_ge passes
      intro other member
      rcases List.mem_cons.mp member with rfl | member
      · exact first_later
      · exact first_later.trans_le (after other member)

theorem sorted_insertion (sorted : entries.Pairwise fun x y => key x ≤ key y) :
    ((entries.takeWhile fun x => decide (key x ≤ key e)) ++
      e :: entries.dropWhile fun x => decide (key x ≤ key e)).Pairwise fun x y => key x ≤ key y := by
  have later := @later_of_dropWhile _ _ _ _ e _ sorted
  have split := sorted
  rw [← @List.takeWhile_append_dropWhile _ (fun x => decide (key x ≤ key e)) entries,List.pairwise_append] at split
  obtain ⟨front,back,across⟩ := split
  rw [List.pairwise_append,List.pairwise_cons]
  refine ⟨front,⟨fun other member => (later other member).le,back⟩,?_⟩
  intro x first y second
  rcases List.mem_cons.mp second with rfl | second
  · simpa using List.mem_takeWhile_imp first
  · exact across x first y second

end Vexjine.Insertions
