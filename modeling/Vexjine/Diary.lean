import Vexjine.Links
import Mathlib.Data.List.TakeWhile

/-!
# The diary of the simulator

`List` keeps its first and its last node, `ListIterator` the two nodes around its place. `OrderedList` inserts
behind everything that does not come after, and the `Diary` compares events by their times. A null pointer that
is dereferenced and a failed assertion are `none`. The nodes of an iterator's loop are counted by the ones that
were ever allocated.
-/

namespace Vexjine.Diary
open Vexjine.LinkedLists
set_option linter.unusedSectionVars false

variable {Object : Type}

/-- The class `List`, with the heap of its nodes. -/
structure LinkedList (Object : Type) where
  nodes : Cells Object := fun _ => none
  allocated : Nat := 0
  firstNode : Option Nat := none
  lastNode : Option Nat := none

structure ListIterator where
  p : Option Nat
  q : Option Nat

namespace LinkedList
variable (l : LinkedList Object)

def isEmpty : Bool := l.firstNode.isNone

def getIterator : ListIterator := ⟨none,l.firstNode⟩

def removeFromFront : Option (Object × LinkedList Object) :=
  l.firstNode.bind fun first => (l.nodes first).map fun node =>
    if l.firstNode = l.lastNode then
      (node.data,{ l with nodes := Function.update l.nodes first none,firstNode := none,lastNode := none })
    else (node.data,{ l with nodes := Function.update l.nodes first none,firstNode := node.next })

end LinkedList

namespace ListIterator
variable (it : ListIterator) (l : LinkedList Object)

def canAdvance : Bool := it.q.isSome

def advance : Option ListIterator := (it.q.bind l.nodes).map fun node => ⟨it.q,node.next⟩

def getValue : Option Object := (it.q.bind l.nodes).map Cell.data

def add (o : Object) : Option (LinkedList Object) :=
  let newNode := l.allocated
  let extended := { l with nodes := Function.update l.nodes newNode (some ⟨o,it.q⟩),allocated := l.allocated + 1 }
  match it.p,it.q with
  | none,none => some { extended with firstNode := some newNode,lastNode := some newNode }
  | none,some _ => some { extended with firstNode := some newNode }
  | some p,q => (extended.nodes p).map fun node =>
    { extended with
      nodes := Function.update extended.nodes p (some { node with next := some newNode })
      lastNode := if q = none then some newNode else l.lastNode }

/-- The node is taken out of the list and not deleted. -/
def remove : Option (LinkedList Object) :=
  (it.q.bind l.nodes).bind fun node =>
    let lastNode := if node.next = none then it.p else l.lastNode
    match it.p with
    | none => some { l with firstNode := node.next,lastNode }
    | some p => (l.nodes p).map fun previous =>
      { l with nodes := Function.update l.nodes p (some { previous with next := node.next }),lastNode }

/-- `while (it->canAdvance() && test(it->getValue())) it->advance();` -/
def advanceWhile (test : Object → Bool) : Nat → ListIterator → Option ListIterator
  | 0,_ => none
  | count + 1,it =>
    if it.canAdvance then (it.getValue l).bind fun value =>
      if test value then (it.advance l).bind (advanceWhile test count) else some it
    else some it

end ListIterator

namespace LinkedList
variable (l : LinkedList Object)

/-- A loop passes each node at most once. -/
def search (test : Object → Bool) : Option ListIterator := l.getIterator.advanceWhile l test (l.allocated + 1)

/-- `OrderedList::insertInOrder`. -/
def insertInOrder (before : Object → Object → Bool) (o : Object) : Option (LinkedList Object) :=
  (l.search fun value => before value o).bind fun it => it.add l o

/-- The data of at most so many nodes from here on. -/
def walk : Nat → Option Nat → List Object
  | 0,_ => []
  | count + 1,current =>
    match current.bind l.nodes with
    | none => []
    | some node => node.data :: walk count node.next

/-- What `print` prints. -/
def contents : List Object := l.walk l.allocated l.firstNode

/-- An iterator that has not found the object is past the last node, whose value is then asked for. -/
def remove [DecidableEq Object] (o : Object) : Option (LinkedList Object) :=
  (l.search fun value => decide (value ≠ o)).bind fun it => (it.getValue l).bind fun value =>
    if value = o then it.remove l else some l

end LinkedList

/-! ## What a list represents -/

/-- The nodes of the list, from the first to the last. -/
structure Represents (l : LinkedList Object) (chain : List (Nat × Object)) : Prop where
  linked : Chain l.nodes l.firstNode chain none
  distinct : (addresses chain).Nodup
  allocated : ∀ address ∈ addresses chain, address < l.allocated
  last : l.lastNode = (addresses chain).getLast?

/-- The iterator stands between these two parts of the list. -/
structure Stands (l : LinkedList Object) (front back : List (Nat × Object)) (it : ListIterator) : Prop where
  whole : Represents l (front ++ back)
  behind : it.p = (addresses front).getLast?
  here : it.q = (addresses back).head?

variable {l next : LinkedList Object} {chain front back : List (Nat × Object)} {it : ListIterator} {address : Nat}
  {data o : Object}

theorem represents_empty : Represents ({} : LinkedList Object) [] where
  linked := rfl
  distinct := List.nodup_nil
  allocated _ member := absurd member (List.not_mem_nil)
  last := rfl

theorem isEmpty_iff (whole : Represents l chain) : l.isEmpty = true ↔ chain = [] := by
  have first := chain_head whole.linked
  cases chain with
  | nil => simp [LinkedList.isEmpty,first]
  | cons entry rest => simp [LinkedList.isEmpty,first]

theorem stands_getIterator (whole : Represents l chain) : Stands l [] chain l.getIterator where
  whole := whole
  behind := rfl
  here := chain_head whole.linked

/-- The node that the iterator is at. -/
theorem node_at (stands : Stands l front ((address,data) :: back) it) :
    it.q = some address ∧ ∃ rest, l.nodes address = some ⟨data,rest⟩ ∧ rest = (addresses back).head? ∧
      Chain l.nodes rest back none := by
  obtain ⟨middle,_,start,rest,found,remaining⟩ := chain_append.mp stands.whole.linked
  exact ⟨stands.here,rest,found,chain_head remaining,remaining⟩

theorem getValue_at (stands : Stands l front ((address,data) :: back) it) : it.getValue l = some data := by
  obtain ⟨here,rest,found,_⟩ := node_at stands
  simp [ListIterator.getValue,here,found]

theorem advance_at (stands : Stands l front ((address,data) :: back) it) :
    ∃ further, it.advance l = some further ∧ Stands l (front ++ [(address,data)]) back further := by
  obtain ⟨here,rest,found,next_,_⟩ := node_at stands
  refine ⟨⟨some address,rest⟩,?_,?_⟩
  · simp [ListIterator.advance,here,found]
  · constructor
    case whole => simpa using stands.whole
    case behind => simp
    case here => exact next_

theorem advanceWhile_stands (test : Object → Bool) (count : Nat) (enough : back.length < count)
    (stands : Stands l front back it) :
    ∃ stop, it.advanceWhile l test count = some stop ∧
      Stands l (front ++ back.takeWhile fun entry => test entry.2) (back.dropWhile fun entry => test entry.2) stop := by
  induction count generalizing front back it with
  | zero => omega
  | succ count ih =>
    cases back with
    | nil =>
      have stopped : it.q = none := stands.here
      refine ⟨it,?_,by simpa using stands⟩
      simp [ListIterator.advanceWhile,ListIterator.canAdvance,stopped]
    | cons entry rest =>
      rcases entry with ⟨address,data⟩
      have value := getValue_at stands
      have more : it.canAdvance = true := by simp [ListIterator.canAdvance,stands.here]
      unfold ListIterator.advanceWhile
      rw [if_pos more,value,Option.bind_some]
      by_cases passes : test data = true
      · obtain ⟨further,advanced,stands'⟩ := advance_at stands
        have shorter : rest.length < count := by
          simp only [List.length_cons] at enough
          omega
        obtain ⟨stop,searched,stops⟩ := ih shorter stands'
        refine ⟨stop,?_,?_⟩
        · rw [if_pos passes,advanced]
          exact searched
        · simpa [List.takeWhile_cons,List.dropWhile_cons,passes] using stops
      · refine ⟨it,if_neg passes,?_⟩
        simpa [List.takeWhile_cons,List.dropWhile_cons,passes] using stands

theorem search_stands (whole : Represents l chain) (test : Object → Bool) :
    ∃ stop, l.search test = some stop ∧
      Stands l (chain.takeWhile fun entry => test entry.2) (chain.dropWhile fun entry => test entry.2) stop := by
  have few := length_le_of_bounded whole.distinct whole.allocated
  exact advanceWhile_stands test (l.allocated + 1) (by omega) (stands_getIterator whole)

/-- A list whose addresses end in one is not empty. -/
private theorem split_last {p : Nat} (last : (addresses chain).getLast? = some p) :
    ∃ init data, chain = init ++ [(p,data)] := by
  rcases List.eq_nil_or_concat chain with empty | ⟨init,entry,split⟩
  · subst empty
    cases last
  · subst split
    rcases entry with ⟨address,data⟩
    have same : address = p := by simpa using last
    exact ⟨init,data,by rw [same,List.concat_eq_append]⟩

private theorem outside_of_distinct {p : Nat} (distinct : (addresses (front ++ [(p,data)] ++ back)).Nodup) :
    p ∉ addresses front ∧ p ∉ addresses back := by
  rw [addresses_append,addresses_append] at distinct
  obtain ⟨first,_,apart⟩ := List.nodup_append.mp distinct
  constructor
  · intro member
    exact (List.nodup_append.mp first).2.2 p member p (by simp) rfl
  · intro member
    exact apart p (by simp) p member rfl

private theorem nil_of_last (last : (addresses chain).getLast? = none) : chain = [] := by
  cases chain with
  | nil => rfl
  | cons entry rest => simp [List.getLast?_cons] at last

private theorem add_first (behind : it.p = none) : it.add l o =
    some { nodes := Function.update l.nodes l.allocated (some ⟨o,it.q⟩),allocated := l.allocated + 1
           firstNode := some l.allocated,lastNode := if it.q = none then some l.allocated else l.lastNode } := by
  unfold ListIterator.add
  rw [behind]
  cases it.q <;> rfl

private theorem add_behind {p : Nat} {node : Cell Object} (behind : it.p = some p)
    (found : Function.update l.nodes l.allocated (some ⟨o,it.q⟩) p = some node) : it.add l o =
    some { l with
      nodes := Function.update (Function.update l.nodes l.allocated (some ⟨o,it.q⟩)) p
        (some ⟨node.data,some l.allocated⟩)
      allocated := l.allocated + 1
      lastNode := if it.q = none then some l.allocated else l.lastNode } := by
  unfold ListIterator.add
  rw [behind]
  simp only [found,Option.map_some]

/-- A new object at the iterator's place. -/
theorem add_stands (stands : Stands l front back it) (o : Object) :
    ∃ next, it.add l o = some next ∧ Represents next (front ++ (l.allocated,o) :: back) := by
  have whole := stands.whole
  have fresh : l.allocated ∉ addresses (front ++ back) := fun member => absurd (whole.allocated _ member) (by omega)
  have fresh_front : l.allocated ∉ addresses front := fun member => fresh (by simp [member])
  have fresh_back : l.allocated ∉ addresses back := fun member => fresh (by simp [member])
  have distinct : (addresses (front ++ (l.allocated,o) :: back)).Nodup := by
    rw [addresses_append,addresses_cons,List.nodup_middle,List.nodup_cons,← addresses_append]
    exact ⟨fresh,whole.distinct⟩
  have allocated : ∀ address ∈ addresses (front ++ (l.allocated,o) :: back), address < l.allocated + 1 := by
    intro address member
    simp only [addresses_append,addresses_cons,List.mem_append,List.mem_cons] at member
    rcases member with earlier | rfl | later
    · have := whole.allocated address (by simp [earlier])
      omega
    · omega
    · have := whole.allocated address (by simp [later])
      omega
  obtain ⟨middle,before,after⟩ := chain_append.mp whole.linked
  have behind_new : Chain (Function.update l.nodes l.allocated (some ⟨o,it.q⟩)) it.q back none := by
    rw [stands.here,← chain_head after]
    exact chain_update fresh_back _ after
  cases behind : it.p with
  | none =>
    have nothing : front = [] := nil_of_last (stands.behind.symm.trans behind)
    subst nothing
    refine ⟨_,add_first behind,⟨rfl,it.q,Function.update_self _ _ _,behind_new⟩,distinct,allocated,?_⟩
    cases back with
    | nil => simp [stands.here]
    | cons entry rest => simpa [stands.here,List.getLast?_cons_cons] using whole.last
  | some p =>
    obtain ⟨init,data,rfl⟩ := split_last (stands.behind.symm.trans behind)
    have differs : p ≠ l.allocated := by
      rintro rfl
      exact fresh_front (by simp)
    obtain ⟨outside_init,outside_back⟩ := outside_of_distinct whole.distinct
    have found : Function.update l.nodes l.allocated (some ⟨o,it.q⟩) p = some ⟨data,middle⟩ := by
      rw [Function.update_of_ne differs]
      exact chain_last before
    refine ⟨_,add_behind behind found,?_,distinct,allocated,?_⟩
    · rw [chain_append]
      refine ⟨some l.allocated,chain_redirect outside_init (chain_update fresh_front _ before),rfl,it.q,?_,?_⟩
      · simp only [Function.update_of_ne differs.symm,Function.update_self]
      · exact chain_update outside_back _ behind_new
    · cases back with
      | nil => simp [stands.here]
      | cons entry rest => simpa [stands.here,List.getLast?_append,List.getLast?_cons_cons] using whole.last

/-- The object at the iterator's place, taken out. -/
theorem remove_stands (stands : Stands l front ((address,data) :: back) it) :
    ∃ next, it.remove l = some next ∧ Represents next (front ++ back) := by
  have whole := stands.whole
  obtain ⟨here,rest,found,next_,remaining⟩ := node_at stands
  have sublist : addresses (front ++ back) |>.Sublist (addresses (front ++ (address,data) :: back)) := by
    simp
  have distinct : (addresses (front ++ back)).Nodup := whole.distinct.sublist sublist
  have allocated : ∀ other ∈ addresses (front ++ back), other < l.allocated := by
    intro other member
    exact whole.allocated other (sublist.mem member)
  obtain ⟨middle,before,_⟩ := chain_append.mp whole.linked
  cases behind : it.p with
  | none =>
    have nothing : front = [] := nil_of_last (stands.behind.symm.trans behind)
    subst nothing
    refine ⟨{ l with firstNode := rest,lastNode := if rest = none then none else l.lastNode },?_,remaining,distinct,
      allocated,?_⟩
    · simp [ListIterator.remove,here,found,behind]
    · cases back with
      | nil => simp [next_]
      | cons entry others => simpa [next_,List.getLast?_cons_cons] using whole.last
  | some p =>
    obtain ⟨init,previous,rfl⟩ := split_last (stands.behind.symm.trans behind)
    obtain ⟨outside_init,outside_back⟩ := outside_of_distinct distinct
    refine ⟨{ l with
      nodes := Function.update l.nodes p (some ⟨previous,rest⟩)
      lastNode := if rest = none then some p else l.lastNode },?_,?_,distinct,allocated,?_⟩
    · simp [ListIterator.remove,here,found,behind,chain_last before]
    · rw [chain_append]
      exact ⟨rest,chain_redirect outside_init before,chain_update outside_back _ remaining⟩
    · cases back with
      | nil => simp [next_]
      | cons entry others => simpa [next_,List.getLast?_append,List.getLast?_cons_cons] using whole.last

/-- The first object, taken out. -/
theorem removeFromFront_represents (whole : Represents l ((address,data) :: chain)) :
    ∃ next, l.removeFromFront = some (data,next) ∧ Represents next chain := by
  obtain ⟨start,rest,found,remaining⟩ := whole.linked
  have outside : address ∉ addresses chain := (List.nodup_cons.mp whole.distinct).1
  have distinct : (addresses chain).Nodup := (List.nodup_cons.mp whole.distinct).2
  have allocated : ∀ other ∈ addresses chain, other < l.allocated := fun other member =>
    whole.allocated other (List.mem_cons_of_mem _ member)
  have freed := chain_update outside none remaining
  cases chain with
  | nil =>
    refine ⟨{ l with nodes := Function.update l.nodes address none,firstNode := none,lastNode := none },?_,rfl,distinct,
      allocated,rfl⟩
    have sole : l.lastNode = some address := whole.last
    simp [LinkedList.removeFromFront,start,found,sole]
  | cons entry others =>
    refine ⟨{ l with nodes := Function.update l.nodes address none,firstNode := rest },?_,freed,distinct,allocated,?_⟩
    · have later : l.lastNode ≠ some address := by
        intro same
        rw [whole.last,addresses_cons,addresses_cons,List.getLast?_cons_cons] at same
        exact outside (List.mem_of_getLast? same)
      simp [LinkedList.removeFromFront,start,found,later.symm]
    · simpa [List.getLast?_cons_cons] using whole.last

/-! ## What a list holds -/

/-- The objects of the list, from the front. -/
def Holds (l : LinkedList Object) (objects : List Object) : Prop :=
  ∃ chain, Represents l chain ∧ chain.map Prod.snd = objects

section Holds
variable {objects : List Object}

theorem holds_empty : Holds ({} : LinkedList Object) [] := ⟨[],represents_empty,rfl⟩

private theorem walk_chain {first : Option Nat} (linked : Chain l.nodes first chain none) (count : Nat)
    (enough : chain.length ≤ count) : l.walk count first = chain.map Prod.snd := by
  induction count generalizing first chain with
  | zero =>
    have nothing : chain = [] := List.eq_nil_of_length_eq_zero (by omega)
    subst nothing
    rfl
  | succ count ih =>
    cases chain with
    | nil =>
      have null : first = none := linked
      simp [LinkedList.walk,null]
    | cons entry rest =>
      rcases entry with ⟨address,data⟩
      obtain ⟨start,next,found,remaining⟩ := linked
      simp only [List.length_cons] at enough
      have later := ih remaining (by omega)
      simp [LinkedList.walk,start,found,later]

theorem contents_eq (holds : Holds l objects) : l.contents = objects := by
  obtain ⟨chain,whole,rfl⟩ := holds
  exact walk_chain whole.linked l.allocated (length_le_of_bounded whole.distinct whole.allocated)

theorem holds_isEmpty (holds : Holds l objects) : l.isEmpty = true ↔ objects = [] := by
  obtain ⟨chain,whole,rfl⟩ := holds
  rw [isEmpty_iff whole,List.map_eq_nil_iff]

/-- The object goes behind everything up to the first that does not come before it. -/
theorem holds_insertInOrder (holds : Holds l objects) (before : Object → Object → Bool) (o : Object) :
    ∃ next, l.insertInOrder before o = some next ∧
      Holds next (objects.takeWhile (before · o) ++ o :: objects.dropWhile (before · o)) := by
  obtain ⟨chain,whole,rfl⟩ := holds
  obtain ⟨stop,searched,stands⟩ := search_stands whole (before · o)
  obtain ⟨next,added,whole'⟩ := add_stands stands o
  refine ⟨next,?_,_,whole',?_⟩
  · rw [LinkedList.insertInOrder,searched,Option.bind_some,added]
  · rw [List.map_append,List.map_cons,List.takeWhile_map,List.dropWhile_map]
    rfl

theorem holds_removeFromFront (holds : Holds l (o :: objects)) :
    ∃ next, l.removeFromFront = some (o,next) ∧ Holds next objects := by
  obtain ⟨chain,whole,same⟩ := holds
  obtain ⟨⟨address,data⟩,rest,rfl,rfl,rfl⟩ := List.map_eq_cons_iff.mp same
  obtain ⟨next,removed,whole'⟩ := removeFromFront_represents whole
  exact ⟨next,removed,rest,whole',rfl⟩

variable [DecidableEq Object]

private theorem erase_split (member : o ∈ objects) : ∃ rest, objects.dropWhile (fun value => decide (value ≠ o)) = o :: rest ∧
    objects.erase o = objects.takeWhile (fun value => decide (value ≠ o)) ++ rest := by
  induction objects with
  | nil => cases member
  | cons first others ih =>
    by_cases same : first = o
    · subst same
      exact ⟨others,by simp,by simp⟩
    · have later : o ∈ others := by
        rcases List.mem_cons.mp member with here | later
        · exact absurd here.symm same
        · exact later
      obtain ⟨rest,dropped,erased⟩ := ih later
      refine ⟨rest,?_,?_⟩
      · rw [List.dropWhile_cons_of_pos (by simpa using same),dropped]
      · rw [List.erase_cons_tail (by simpa using same),List.takeWhile_cons_of_pos (by simpa using same),erased]
        rfl

theorem holds_remove (holds : Holds l objects) (member : o ∈ objects) :
    ∃ next, l.remove o = some next ∧ Holds next (objects.erase o) := by
  obtain ⟨chain,whole,rfl⟩ := holds
  obtain ⟨stop,searched,stands⟩ := search_stands whole fun value => decide (value ≠ o)
  obtain ⟨rest,dropped,erased⟩ := erase_split member
  rw [List.dropWhile_map] at dropped
  obtain ⟨⟨address,data⟩,back,split,rfl,rfl⟩ := List.map_eq_cons_iff.mp dropped
  have stands' : Stands l _ ((address,data) :: back) stop := split ▸ stands
  obtain ⟨next,removed,whole'⟩ := remove_stands stands'
  refine ⟨next,?_,_,whole',?_⟩
  · rw [LinkedList.remove,searched,Option.bind_some,getValue_at stands',Option.bind_some,if_pos rfl,removed]
  · rw [erased,List.map_append,List.takeWhile_map]
    rfl

/-- The search for an object that the list does not hold ends at the null pointer. -/
theorem remove_absent (holds : Holds l objects) (absent : o ∉ objects) : l.remove o = none := by
  obtain ⟨chain,whole,rfl⟩ := holds
  obtain ⟨stop,searched,stands⟩ := search_stands whole fun value => decide (value ≠ o)
  have past : chain.dropWhile (fun entry => decide (entry.2 ≠ o)) = [] := by
    rw [List.dropWhile_eq_nil_iff]
    intro entry member
    simp only [decide_eq_true_eq]
    rintro rfl
    exact absent (List.mem_map_of_mem member)
  have null : stop.q = none := by
    rw [stands.here,past]
    rfl
  rw [LinkedList.remove,searched,Option.bind_some]
  simp [ListIterator.getValue,null]

end Holds

end Vexjine.Diary
