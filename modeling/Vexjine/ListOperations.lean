import Vexjine.Diary
import Vexjine.Runs

/-!
# Operations on linked lists

Sequences of operations on a list and on any number of iterators over it. What they
define is said in terms of the list's objects and of the place that an iterator has
between them, which it has as long as its two nodes are neighbours in the list.
-/

namespace Vexjine.Diary
open Vexjine.LinkedLists
set_option linter.unusedSectionVars false

variable {Object : Type}

/-! ## The other operations -/

namespace LinkedList
variable (l : LinkedList Object)

/-- With a new node, which nothing points to yet. -/
def allocate (data : Object) (next : Option Nat) : LinkedList Object :=
  { l with nodes := Function.update l.nodes l.allocated (some ⟨data,next⟩),allocated := l.allocated + 1 }

def insertAtFront (insertItem : Object) : LinkedList Object :=
  if l.isEmpty then
    { l.allocate insertItem none with firstNode := some l.allocated,lastNode := some l.allocated }
  else { l.allocate insertItem l.firstNode with firstNode := some l.allocated }

def insertAtBack (insertItem : Object) : Option (LinkedList Object) :=
  let extended := l.allocate insertItem none
  if l.isEmpty then some { extended with firstNode := some l.allocated,lastNode := some l.allocated }
  else l.lastNode.bind fun last => (extended.nodes last).map fun node =>
    { extended with
      nodes := Function.update extended.nodes last (some { node with next := some l.allocated })
      lastNode := some l.allocated }

/-- `while (current->next != lastNode) current = current->next;` -/
def beforeLast : Nat → Option Nat → Option Nat
  | 0,_ => none
  | count + 1,current => current.bind fun address => (l.nodes address).bind fun node =>
    if node.next = l.lastNode then some address else beforeLast count node.next

def removeFromBack : Option (Object × LinkedList Object) :=
  if l.isEmpty then none
  else l.lastNode.bind fun last => (l.nodes last).bind fun removed =>
    if l.firstNode = l.lastNode then
      some (removed.data,{ l with nodes := Function.update l.nodes last none,firstNode := none,lastNode := none })
    else (l.beforeLast (l.allocated + 1) l.firstNode).bind fun current =>
      (Function.update l.nodes last none current).map fun node =>
        (removed.data,{ l with
          nodes := Function.update (Function.update l.nodes last none) current (some { node with next := none })
          lastNode := some current })

end LinkedList

namespace ListIterator
variable (it : ListIterator) (l : LinkedList Object)

def replaceValue (d : Object) : Option (LinkedList Object) :=
  it.q.bind fun q => (l.nodes q).map fun node =>
    { l with nodes := Function.update l.nodes q (some { node with data := d }) }

/-- Where `add` leaves the iterator. -/
def afterAdd : ListIterator :=
  if it.p = none ∧ it.q = none then ⟨none,some l.allocated⟩ else ⟨some l.allocated,it.q⟩

/-- Where `remove` leaves the iterator. -/
def afterRemove : ListIterator := ⟨it.p,(it.q.bind l.nodes).bind Cell.next⟩

end ListIterator

/-! ## What they do to the nodes -/

section Nodes
variable {l : LinkedList Object} {chain front back : List (Nat × Object)} {it : ListIterator} {address : Nat}
  {data : Object}

theorem insertAtFront_eq (l : LinkedList Object) (o : Object) : l.getIterator.add l o = some (l.insertAtFront o) := by
  cases first : l.firstNode with
  | none => simp [LinkedList.insertAtFront,ListIterator.add,LinkedList.getIterator,LinkedList.isEmpty,LinkedList.allocate,first]
  | some node =>
    simp [LinkedList.insertAtFront,ListIterator.add,LinkedList.getIterator,LinkedList.isEmpty,LinkedList.allocate,first]

theorem insertAtFront_represents (whole : Represents l chain) (o : Object) :
    Represents (l.insertAtFront o) ((l.allocated,o) :: chain) := by
  obtain ⟨next,added,represents⟩ := add_stands (stands_getIterator whole) o
  rw [insertAtFront_eq,Option.some.injEq] at added
  subst added
  exact represents

/-- The iterator behind the last node. -/
theorem stands_end (whole : Represents l chain) : Stands l chain [] ⟨l.lastNode,none⟩ where
  whole := by rwa [List.append_nil]
  behind := whole.last
  here := rfl

theorem insertAtBack_represents (whole : Represents l chain) (o : Object) :
    ∃ next, l.insertAtBack o = some next ∧ Represents next (chain ++ [(l.allocated,o)]) := by
  obtain ⟨next,added,represents⟩ := add_stands (stands_end whole) o
  refine ⟨next,?_,represents⟩
  rw [← added]
  have empty := isEmpty_iff whole
  cases last : l.lastNode with
  | none =>
    have nothing : chain = [] := by
      cases chain with
      | nil => rfl
      | cons entry rest => simp [whole.last,List.getLast?_cons] at last
    simp [LinkedList.insertAtBack,ListIterator.add,LinkedList.allocate,empty.mpr nothing]
  | some node =>
    have something : ¬ l.isEmpty = true := by
      intro isEmpty
      rw [whole.last,empty.mp isEmpty] at last
      contradiction
    simp [LinkedList.insertAtBack,ListIterator.add,LinkedList.allocate,something,last]

theorem holds_insertAtBack {objects : List Object} (holds : Holds l objects) (o : Object) :
    ∃ next, l.insertAtBack o = some next ∧ Holds next (objects ++ [o]) := by
  obtain ⟨chain,whole,rfl⟩ := holds
  obtain ⟨next,inserted,represents⟩ := insertAtBack_represents whole o
  exact ⟨next,inserted,_,represents,List.map_append⟩

private theorem beforeLast_spec {p last : Nat} {d removed : Object} (isLast : l.lastNode = some last) {count : Nat}
    {current : Option Nat} (middle : List (Nat × Object)) (enough : middle.length < count)
    (linked : Chain l.nodes current (middle ++ [(p,d),(last,removed)]) none)
    (distinct : (addresses (middle ++ [(p,d),(last,removed)])).Nodup) : l.beforeLast count current = some p := by
  induction middle generalizing count current with
  | nil =>
    obtain ⟨count,rfl⟩ := Nat.exists_eq_succ_of_ne_zero (Nat.ne_of_gt enough)
    obtain ⟨rfl,next,found,start,-⟩ := linked
    rw [LinkedList.beforeLast,Option.bind_some,found,Option.bind_some,if_pos (start.trans isLast.symm)]
  | cons entry rest ih =>
    obtain ⟨count,rfl⟩ := Nat.exists_eq_succ_of_ne_zero (Nat.ne_of_gt (Nat.zero_lt_of_lt enough))
    rcases entry with ⟨address,data⟩
    obtain ⟨rfl,next,found,remaining⟩ := linked
    have apart : (addresses (rest ++ [(p,d),(last,removed)])).Nodup := (List.nodup_cons.mp distinct).2
    have earlier : next ≠ l.lastNode := by
      rw [isLast,chain_head remaining]
      intro same
      cases rest with
      | nil =>
        have other : p = last := by simpa using same
        exact (List.nodup_cons.mp apart).1 (by simp [other])
      | cons first others =>
        have other : first.1 = last := by simpa using same
        exact (List.nodup_cons.mp apart).1 (by simp [other])
    rw [LinkedList.beforeLast,Option.bind_some,found,Option.bind_some,if_neg earlier]
    exact ih (by simpa using enough) remaining apart

/-- What the nodes before the last one keep. -/
private theorem before_last (whole : Represents l (chain ++ [(address,data)])) :
    (addresses chain).Nodup ∧ (∀ other ∈ addresses chain, other < l.allocated) ∧ address ∉ addresses chain := by
  have distinct := whole.distinct
  rw [addresses_append] at distinct
  obtain ⟨apart,-,differ⟩ := List.nodup_append.mp distinct
  refine ⟨apart,fun other member => whole.allocated other (by simp [member]),?_⟩
  intro member
  exact differ address member address (by simp) rfl

/-- The loop stops at the node before the last one. -/
private theorem beforeLast_eq {init : List (Nat × Object)} {p : Nat} {d : Object}
    (whole : Represents l (init ++ [(p,d)] ++ [(address,data)])) :
    l.beforeLast (l.allocated + 1) l.firstNode = some p := by
  obtain ⟨distinct,allocated,-⟩ := before_last whole
  have few := length_le_of_bounded distinct allocated
  have enough : init.length < l.allocated + 1 := by
    rw [List.length_append,List.length_singleton] at few
    omega
  have isLast : l.lastNode = some address := by rw [whole.last,addresses_append]; simp
  exact beforeLast_spec isLast init enough (by simpa using whole.linked) (by simpa using whole.distinct)

/-- The last object, taken out. -/
theorem removeFromBack_represents (whole : Represents l (chain ++ [(address,data)])) :
    ∃ next, l.removeFromBack = some (data,next) ∧ Represents next chain := by
  have isLast : l.lastNode = some address := by rw [whole.last,addresses_append]; simp
  have found : l.nodes address = some ⟨data,none⟩ := chain_last whole.linked
  have something : ¬ l.isEmpty = true := fun isEmpty => by simpa using (isEmpty_iff whole).mp isEmpty
  have start : l.firstNode = (addresses (chain ++ [(address,data)])).head? := chain_head whole.linked
  obtain ⟨distinct,allocated,outside⟩ := before_last whole
  rcases List.eq_nil_or_concat chain with rfl | ⟨init,⟨p,d⟩,rfl⟩
  · have sole : l.firstNode = l.lastNode := by rw [start,isLast]; rfl
    refine ⟨{ l with nodes := Function.update l.nodes address none,firstNode := none,lastNode := none },?_,rfl,distinct,
      allocated,rfl⟩
    rw [LinkedList.removeFromBack,if_neg something,isLast,Option.bind_some,found,Option.bind_some,← isLast,if_pos sole]
  · rw [List.concat_eq_append] at whole start distinct allocated outside ⊢
    have differs : p ≠ address := by
      rintro rfl
      exact outside (by simp)
    have several : l.firstNode ≠ some address := by
      intro same
      rw [start] at same
      cases init with
      | nil => exact differs (by simpa using same)
      | cons entry others => exact outside (by simpa using Or.inl (Option.some.inj same).symm)
    obtain ⟨middle,before,-⟩ := chain_append.mp whole.linked
    have previous : Function.update l.nodes address none p = some ⟨d,middle⟩ := by
      rw [Function.update_of_ne differs]
      exact chain_last before
    have fresh : p ∉ addresses init := by
      rw [addresses_append] at distinct
      exact fun member => (List.nodup_append.mp distinct).2.2 p member p (by simp) rfl
    refine ⟨{ l with
      nodes := Function.update (Function.update l.nodes address none) p (some ⟨d,none⟩)
      lastNode := some p },?_,?_,distinct,allocated,?_⟩
    · rw [LinkedList.removeFromBack,if_neg something,isLast,Option.bind_some,found,Option.bind_some,if_neg several,
        beforeLast_eq whole,Option.bind_some,previous,Option.map_some]
    · exact chain_redirect fresh (chain_update outside none before)
    · simp

theorem replaceValue_stands (stands : Stands l front ((address,data) :: back) it) (d : Object) :
    ∃ next, it.replaceValue l d = some next ∧ Represents next (front ++ (address,d) :: back) := by
  have whole := stands.whole
  obtain ⟨here,rest,found,-,remaining⟩ := node_at stands
  have same : addresses (front ++ (address,d) :: back) = addresses (front ++ (address,data) :: back) := by simp
  obtain ⟨middle,before,start,-⟩ := chain_append.mp whole.linked
  have apart := whole.distinct
  rw [addresses_append,addresses_cons,List.nodup_middle,List.nodup_cons,List.mem_append,not_or] at apart
  refine ⟨{ l with nodes := Function.update l.nodes address (some ⟨d,rest⟩) },?_,?_,?_,?_,?_⟩
  · simp [ListIterator.replaceValue,here,found]
  · exact chain_append.mpr ⟨middle,chain_update apart.1.1 _ before,start,rest,Function.update_self ..,
      chain_update apart.1.2 _ remaining⟩
  · rw [same]
    exact whole.distinct
  · rw [same]
    exact whole.allocated
  · rw [same]
    exact whole.last

end Nodes

/-! ## Where an iterator is left -/

section Places
variable {l next : LinkedList Object} {front back : List (Nat × Object)} {it : ListIterator} {address : Nat}
  {data o : Object}

/-- In an empty list the new node is the one that the iterator is at, in any other it is behind. -/
theorem stands_afterAdd (stands : Stands l front back it) (whole : Represents next (front ++ (l.allocated,o) :: back)) :
    if front = [] ∧ back = [] then Stands next [] [(l.allocated,o)] (it.afterAdd l)
    else Stands next (front ++ [(l.allocated,o)]) back (it.afterAdd l) := by
  have first : it.p = none ↔ front = [] := by
    rw [stands.behind,List.getLast?_eq_none_iff]
    exact List.map_eq_nil_iff
  have last : it.q = none ↔ back = [] := by
    rw [stands.here,List.head?_eq_none_iff]
    exact List.map_eq_nil_iff
  have alone := and_congr first last
  split
  · next empty =>
    rw [ListIterator.afterAdd,if_pos (alone.mpr empty)]
    rw [empty.1,empty.2] at whole
    exact ⟨whole,rfl,rfl⟩
  · next among =>
    rw [ListIterator.afterAdd,if_neg (alone.not.mpr among)]
    exact ⟨by simpa using whole,by simp,stands.here⟩

theorem stands_afterRemove (stands : Stands l front ((address,data) :: back) it) (whole : Represents next (front ++ back)) :
    Stands next front back (it.afterRemove l) := by
  obtain ⟨here,rest,found,start,-⟩ := node_at stands
  refine ⟨whole,stands.behind,?_⟩
  rw [ListIterator.afterRemove,here,Option.bind_some,found,Option.bind_some,start]

end Places
end Vexjine.Diary

namespace Vexjine.ListOperations
open Vexjine.LinkedLists Vexjine.Diary Vexjine.Runs
set_option linter.unusedSectionVars false

variable {Object : Type} [DecidableEq Object]

/-! ## Sequences of operations -/

/-- A list with the iterators over it, which have names here. -/
structure State (Object : Type) where
  list : LinkedList Object := {}
  iterators : Nat → Option ListIterator := fun _ => none

inductive Operation (Object : Type)
  | insertAtFront (insertItem : Object)
  | insertAtBack (insertItem : Object)
  | removeFromFront
  | removeFromBack
  | remove (o : Object)
  | getIterator (name : Nat)
  | advance (name : Nat)
  | replaceValue (name : Nat) (d : Object)
  | add (name : Nat) (o : Object)
  | removeHere (name : Nat)

namespace State
variable (state : State Object)

def place (name : Nat) (it : ListIterator) : State Object :=
  { state with iterators := Function.update state.iterators name (some it) }

/-- With the object that is removed from an end. -/
def call : Operation Object → Option (Option Object × State Object)
  | .insertAtFront insertItem => some (none,{ state with list := state.list.insertAtFront insertItem })
  | .insertAtBack insertItem => (state.list.insertAtBack insertItem).map fun list => (none,{ state with list })
  | .removeFromFront => state.list.removeFromFront.map fun removed => (some removed.1,{ state with list := removed.2 })
  | .removeFromBack => state.list.removeFromBack.map fun removed => (some removed.1,{ state with list := removed.2 })
  | .remove o => (state.list.remove o).map fun list => (none,{ state with list })
  | .getIterator name => some (none,state.place name state.list.getIterator)
  | .advance name => (state.iterators name).bind fun it =>
    (it.advance state.list).map fun further => (none,state.place name further)
  | .replaceValue name d => (state.iterators name).bind fun it =>
    (it.replaceValue state.list d).map fun list => (none,{ state with list })
  | .add name o => (state.iterators name).bind fun it =>
    (it.add state.list o).map fun list => (none,{ state.place name (it.afterAdd state.list) with list })
  | .removeHere name => (state.iterators name).bind fun it =>
    (it.remove state.list).map fun list => (none,{ state.place name (it.afterRemove state.list) with list })

def step (operation : Operation Object) : Option (State Object) := (state.call operation).map Prod.snd

/-- The iterator has its place between these objects of the list. -/
def Between (name : Nat) (front back : List Object) : Prop :=
  ∃ it ∈ state.iterators name, ∃ before after, Stands state.list before after it ∧
    before.map Prod.snd = front ∧ after.map Prod.snd = back

end State

/-- The chain of nodes leads from the first node to the last one, and both are null exactly for the empty list. -/
structure Integrity (l : LinkedList Object) : Prop where
  chain : ∃ chain, Represents l chain ∧ chain.map Prod.snd = l.contents
  first : l.firstNode = none ↔ l.contents = []
  last : l.lastNode = none ↔ l.contents = []

/-- What an operation returns and leaves. -/
def Defined (state : State Object) (returned : Option Object) (next : State Object) : Operation Object → Prop
  | .insertAtFront insertItem =>
    next.list.contents = insertItem :: state.list.contents ∧ next.iterators = state.iterators
  | .insertAtBack insertItem =>
    next.list.contents = state.list.contents ++ [insertItem] ∧ next.iterators = state.iterators
  | .removeFromFront =>
    ∃ o, returned = some o ∧ state.list.contents = o :: next.list.contents ∧ next.iterators = state.iterators
  | .removeFromBack =>
    ∃ o, returned = some o ∧ state.list.contents = next.list.contents ++ [o] ∧ next.iterators = state.iterators
  | .remove o =>
    next.list.contents = state.list.contents.erase o ∧ next.iterators = state.iterators ∧
      (o ∉ state.list.contents → next = state)
  | .getIterator name => next.list = state.list ∧ next.Between name [] state.list.contents
  | .advance name => ∃ front value back, state.Between name front (value :: back) ∧ next.list = state.list ∧
      next.Between name (front ++ [value]) back
  | .replaceValue name d => ∃ front value back, state.Between name front (value :: back) ∧
      next.list.contents = front ++ d :: back ∧ next.iterators = state.iterators
  | .add name o => ∃ front back, state.Between name front back ∧ next.list.contents = front ++ o :: back ∧
      if front = [] ∧ back = [] then next.Between name [] [o] else next.Between name (front ++ [o]) back
  | .removeHere name => ∃ front value back, state.Between name front (value :: back) ∧
      next.list.contents = front ++ back ∧ next.Between name front back

/-- The operation completes and does what it defines, and the list keeps its integrity. -/
def Serves (state : State Object) (operation : Operation Object) : Prop :=
  ∃ returned next, state.call operation = some (returned,next) ∧ Integrity next.list ∧
    Defined state returned next operation

/-- Nothing is removed that is not there, and iterators have their place in the list. -/
def Usable (state : State Object) : Operation Object → Prop
  | .insertAtFront _ | .insertAtBack _ | .getIterator _ => True
  | .removeFromFront | .removeFromBack => state.list.contents ≠ []
  | .remove o => o ∈ state.list.contents
  | .advance name | .replaceValue name _ | .removeHere name => ∃ front value back, state.Between name front (value :: back)
  | .add name _ => ∃ front back, state.Between name front back

/-! ## One operation -/

private theorem integrity_of_holds {l : LinkedList Object} {objects : List Object} (holds : Holds l objects) :
    Integrity l ∧ l.contents = objects := by
  have contents := contents_eq holds
  obtain ⟨chain,whole,rfl⟩ := holds
  refine ⟨⟨⟨chain,whole,contents.symm⟩,?_,?_⟩,contents⟩
  · rw [chain_head whole.linked,contents,List.head?_eq_none_iff,List.map_eq_nil_iff]
    exact List.map_eq_nil_iff
  · rw [whole.last,contents,List.getLast?_eq_none_iff,List.map_eq_nil_iff]
    exact List.map_eq_nil_iff

private theorem holds_of_integrity {l : LinkedList Object} (integrity : Integrity l) : Holds l l.contents := integrity.chain

section Steps
variable {state : State Object} {name : Nat} {front back : List Object} {value : Object}

private theorem between_place {it : ListIterator} {before after : List (Nat × Object)}
    (stands : Stands state.list before after it) (name : Nat) :
    (state.place name it).Between name (before.map Prod.snd) (after.map Prod.snd) :=
  ⟨it,Function.update_self ..,before,after,stands,rfl,rfl⟩

/-- The nodes on both sides of an iterator that has an object ahead. -/
private theorem between_cons (between : state.Between name front (value :: back)) :
    ∃ it ∈ state.iterators name, ∃ before address after, Stands state.list before ((address,value) :: after) it ∧
      before.map Prod.snd = front ∧ after.map Prod.snd = back := by
  obtain ⟨it,named,before,ahead,stands,rfl,same⟩ := between
  obtain ⟨⟨address,data⟩,after,rfl,rfl,rfl⟩ := List.map_eq_cons_iff.mp same
  exact ⟨it,named,before,address,after,stands,rfl,rfl⟩

private theorem serves_insertAtFront (integrity : Integrity state.list) (o : Object) : Serves state (.insertAtFront o) := by
  obtain ⟨chain,whole,same⟩ := integrity.chain
  obtain ⟨kept,contents⟩ := integrity_of_holds ⟨_,insertAtFront_represents whole o,rfl⟩
  refine ⟨none,_,rfl,kept,?_,rfl⟩
  rw [contents,List.map_cons,same]

private theorem serves_insertAtBack (integrity : Integrity state.list) (o : Object) : Serves state (.insertAtBack o) := by
  obtain ⟨next,inserted,represents⟩ := holds_insertAtBack (holds_of_integrity integrity) o
  obtain ⟨kept,contents⟩ := integrity_of_holds represents
  refine ⟨none,{ state with list := next },?_,kept,contents,rfl⟩
  rw [State.call,inserted,Option.map_some]

private theorem serves_removeFromFront (integrity : Integrity state.list) (some' : state.list.contents ≠ []) :
    Serves state .removeFromFront := by
  obtain ⟨o,rest,split⟩ := List.exists_cons_of_ne_nil some'
  have holds := holds_of_integrity integrity
  rw [split] at holds
  obtain ⟨next,removed,left⟩ := holds_removeFromFront holds
  obtain ⟨kept,contents⟩ := integrity_of_holds left
  refine ⟨some o,{ state with list := next },?_,kept,o,rfl,?_,rfl⟩
  · rw [State.call,removed,Option.map_some]
  · rw [split,contents]

private theorem serves_removeFromBack (integrity : Integrity state.list) (some' : state.list.contents ≠ []) :
    Serves state .removeFromBack := by
  obtain ⟨chain,whole,same⟩ := integrity.chain
  have nonempty : chain ≠ [] := by
    rintro rfl
    exact some' same.symm
  obtain ⟨init,⟨address,o⟩,rfl⟩ := (List.eq_nil_or_concat chain).resolve_left nonempty
  rw [List.concat_eq_append] at whole same
  obtain ⟨next,removed,represents⟩ := removeFromBack_represents whole
  obtain ⟨kept,contents⟩ := integrity_of_holds ⟨_,represents,rfl⟩
  refine ⟨some o,{ state with list := next },?_,kept,o,rfl,?_,rfl⟩
  · rw [State.call,removed,Option.map_some]
  · rw [← same,contents,List.map_append]
    rfl

/-- The search for an absent object ends behind the last node, whose object is then asked for. -/
theorem serves_remove_iff (integrity : Integrity state.list) (o : Object) :
    Serves state (.remove o) ↔ o ∈ state.list.contents := by
  have holds := holds_of_integrity integrity
  constructor
  · rintro ⟨returned,next,called,-⟩
    by_contra absent
    rw [State.call,remove_absent holds absent] at called
    contradiction
  · intro present
    obtain ⟨next,removed,left⟩ := holds_remove holds present
    obtain ⟨kept,contents⟩ := integrity_of_holds left
    refine ⟨none,{ state with list := next },?_,kept,contents,rfl,fun absent => absurd present absent⟩
    rw [State.call,removed,Option.map_some]

private theorem serves_getIterator (integrity : Integrity state.list) (name : Nat) : Serves state (.getIterator name) := by
  obtain ⟨chain,whole,same⟩ := integrity.chain
  refine ⟨none,_,rfl,integrity,rfl,?_⟩
  rw [← same]
  exact between_place (stands_getIterator whole) name

private theorem serves_advance (integrity : Integrity state.list) (between : state.Between name front (value :: back)) :
    Serves state (.advance name) := by
  obtain ⟨it,named,before,address,after,stands,rfl,rfl⟩ := between_cons between
  obtain ⟨further,advanced,moved⟩ := advance_at stands
  refine ⟨none,state.place name further,?_,integrity,_,value,_,between,rfl,?_⟩
  · rw [State.call,named,Option.bind_some,advanced,Option.map_some]
  · have placed := between_place moved name
    rwa [List.map_append] at placed

private theorem serves_replaceValue (between : state.Between name front (value :: back)) (d : Object) :
    Serves state (.replaceValue name d) := by
  obtain ⟨it,named,before,address,after,stands,rfl,rfl⟩ := between_cons between
  obtain ⟨next,replaced,represents⟩ := replaceValue_stands stands d
  obtain ⟨kept,contents⟩ := integrity_of_holds ⟨_,represents,rfl⟩
  refine ⟨none,{ state with list := next },?_,kept,_,value,_,between,?_,rfl⟩
  · rw [State.call,named,Option.bind_some,replaced,Option.map_some]
  · rw [contents,List.map_append]
    rfl

private theorem serves_add (between : state.Between name front back) (o : Object) : Serves state (.add name o) := by
  obtain ⟨it,named,before,after,stands,rfl,rfl⟩ := id between
  obtain ⟨next,added,represents⟩ := add_stands stands o
  obtain ⟨kept,contents⟩ := integrity_of_holds ⟨_,represents,rfl⟩
  refine ⟨none,{ state.place name (it.afterAdd state.list) with list := next },?_,kept,_,_,between,?_,?_⟩
  · rw [State.call,named,Option.bind_some,added,Option.map_some]
  · rw [contents,List.map_append]
    rfl
  · have left := stands_afterAdd stands represents
    simp only [List.map_eq_nil_iff]
    split at left
    · next empty =>
      rw [if_pos empty]
      exact ⟨_,Function.update_self ..,_,_,left,rfl,rfl⟩
    · next among =>
      rw [if_neg among]
      exact ⟨_,Function.update_self ..,_,_,left,by simp,rfl⟩

private theorem serves_removeHere (between : state.Between name front (value :: back)) : Serves state (.removeHere name) := by
  obtain ⟨it,named,before,address,after,stands,rfl,rfl⟩ := between_cons between
  obtain ⟨next,removed,represents⟩ := remove_stands stands
  obtain ⟨kept,contents⟩ := integrity_of_holds ⟨_,represents,rfl⟩
  refine ⟨none,{ state.place name (it.afterRemove state.list) with list := next },?_,kept,_,value,_,between,?_,?_⟩
  · rw [State.call,named,Option.bind_some,removed,Option.map_some]
  · rw [contents,List.map_append]
  · exact ⟨_,Function.update_self ..,_,_,stands_afterRemove stands represents,rfl,rfl⟩

/-- One operation serves exactly where it is usable. -/
theorem serves_iff (integrity : Integrity state.list) (operation : Operation Object) :
    Serves state operation ↔ Usable state operation := by
  cases operation with
  | insertAtFront o => exact iff_of_true (serves_insertAtFront integrity o) trivial
  | insertAtBack o => exact iff_of_true (serves_insertAtBack integrity o) trivial
  | getIterator name => exact iff_of_true (serves_getIterator integrity name) trivial
  | remove o => exact serves_remove_iff integrity o
  | removeFromFront =>
    refine ⟨?_,serves_removeFromFront integrity⟩
    rintro ⟨returned,next,-,-,o,-,split,-⟩
    rw [Usable,split]
    exact List.cons_ne_nil _ _
  | removeFromBack =>
    refine ⟨?_,serves_removeFromBack integrity⟩
    rintro ⟨returned,next,-,-,o,-,split,-⟩
    rw [Usable,split]
    exact List.append_ne_nil_of_right_ne_nil _ (List.cons_ne_nil _ _)
  | advance name =>
    refine ⟨?_,fun ⟨front,value,back,between⟩ => serves_advance integrity between⟩
    rintro ⟨returned,next,-,-,front,value,back,between,-⟩
    exact ⟨front,value,back,between⟩
  | replaceValue name d =>
    refine ⟨?_,fun ⟨front,value,back,between⟩ => serves_replaceValue between d⟩
    rintro ⟨returned,next,-,-,front,value,back,between,-⟩
    exact ⟨front,value,back,between⟩
  | add name o =>
    refine ⟨?_,fun ⟨front,back,between⟩ => serves_add between o⟩
    rintro ⟨returned,next,-,-,front,back,between,-⟩
    exact ⟨front,back,between⟩
  | removeHere name =>
    refine ⟨?_,fun ⟨front,value,back,between⟩ => serves_removeHere between⟩
    rintro ⟨returned,next,-,-,front,value,back,between,-⟩
    exact ⟨front,value,back,between⟩

end Steps

/-- Every operation of a sequence serves exactly if every one is usable. -/
theorem operations_serve_iff (operations : List (Operation Object)) :
    Meets State.step Serves ({} : State Object) operations ↔ Meets State.step Usable {} operations := by
  refine meets_congr_of_invariant ?_ (fun state operation integrity => serves_iff integrity operation)
    (integrity_of_holds holds_empty).1 operations
  rintro state operation next - ⟨returned,left,called,kept,-⟩ stepped
  rw [State.step,called,Option.map_some,Option.some.injEq] at stepped
  exact stepped ▸ kept

/-- An absent object is not removed from a list of one object, nor from an empty list. -/
theorem absent_not_removed :
    ¬ Meets State.step Serves ({} : State Nat) [.insertAtFront 1,.remove 2] ∧
      ¬ Meets State.step Serves ({} : State Nat) [.remove 2] := by
  rw [operations_serve_iff,operations_serve_iff]
  constructor
  · rintro ⟨-,later⟩
    have absent : 2 ∉ (({} : LinkedList Nat).insertAtFront 1).contents := by decide
    exact absent (later _ rfl).1
  · rintro ⟨present,-⟩
    have absent : 2 ∉ ({} : LinkedList Nat).contents := by decide
    exact absent present

end Vexjine.ListOperations
