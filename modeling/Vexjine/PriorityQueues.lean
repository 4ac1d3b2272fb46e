import Vexjine.ListOperations

/-!
# Priority queues

A queue counts its customers and leaves it to its subclass to keep them: a FIFO queue in
a list, a priority queue in one FIFO queue for each priority. All customers that wait,
in the order of their arrival, say which one is served.
-/

namespace Vexjine.PriorityQueues
open Vexjine.Diary Vexjine.Runs

variable {Customer : Type}

abbrev INT_MAX : Int := 2 ^ 31 - 1

/-! ## Queues -/

/-- The class `Queue`, with what its subclass keeps the customers in; the measures are left out. -/
structure Queue (Contents : Type) where
  contents : Contents
  capacity : Int := INT_MAX
  pop : Int := 0

namespace Queue
variable {Contents : Type} (queue : Queue Contents)

def canAccept : Bool := queue.pop < queue.capacity

def queueLength : Int := queue.pop

/-- A failed check aborts. -/
def enqueue (insertIntoQueue : Contents → Option Contents) : Option (Queue Contents) :=
  if queue.canAccept then (insertIntoQueue queue.contents).map fun contents =>
    { queue with contents,pop := queue.pop + 1 }
  else none

def dequeue (removeFromQueue : Contents → Option (Customer × Contents)) : Option (Customer × Queue Contents) :=
  if 0 < queue.pop then (removeFromQueue queue.contents).map fun removed =>
    (removed.1,{ queue with contents := removed.2,pop := queue.pop - 1 })
  else none

end Queue

abbrev FIFOQueue (Customer : Type) := Queue (LinkedList Customer)

namespace FIFOQueue

def enqueue (customer : Customer) (queue : FIFOQueue Customer) : Option (FIFOQueue Customer) :=
  Queue.enqueue queue fun q => q.insertAtBack customer

def dequeue (queue : FIFOQueue Customer) : Option (Customer × FIFOQueue Customer) :=
  Queue.dequeue queue LinkedList.removeFromFront

end FIFOQueue

/-- The array of the priorities' queues. -/
abbrev Queues (Customer : Type) := List (FIFOQueue Customer)

abbrev PriorityQueue (Customer : Type) := Queue (Queues Customer)

namespace PriorityQueue

def build (nqueues : Nat) : PriorityQueue Customer := { contents := List.replicate nqueues { contents := {} } }

/-- A customer that arrives, with its priority. -/
abbrev Arrival (Customer : Type) := Customer × Int

/-- Another priority than 0, 1, .., nqueues - 1 is outside of the array. -/
def insertIntoQueue (arrival : Arrival Customer) (qs : Queues Customer) : Option (Queues Customer) :=
  if 0 ≤ arrival.2 then
    (qs[arrival.2.toNat]?).bind fun q => (FIFOQueue.enqueue arrival.1 q).map fun next => qs.set arrival.2.toNat next
  else none

/-- The loop goes on behind the queues that are empty. -/
def removeFromQueue : Queues Customer → Option (Customer × Queues Customer)
  | [] => none
  | q :: rest =>
    if 0 < q.queueLength then (FIFOQueue.dequeue q).map fun removed => (removed.1,removed.2 :: rest)
    else (removeFromQueue rest).map fun removed => (removed.1,q :: removed.2)

/-- Hides that of `Queue`, which is not virtual and which `enqueue` calls. -/
def canAccept (arrival : Arrival Customer) (queue : PriorityQueue Customer) : Option Bool :=
  if 0 ≤ arrival.2 then (queue.contents[arrival.2.toNat]?).map Queue.canAccept else none

end PriorityQueue
open PriorityQueue

inductive Operation (Customer : Type)
  | enqueue (arrival : Arrival Customer)
  | dequeue

def call (queue : PriorityQueue Customer) : Operation Customer → Option (Option Customer × PriorityQueue Customer)
  | .enqueue arrival => (Queue.enqueue queue (insertIntoQueue arrival)).map fun next => (none,next)
  | .dequeue => (Queue.dequeue queue removeFromQueue).map fun removed => (some removed.1,removed.2)

/-! ## The customers in the order of their arrival -/

/-- Has the highest priority of all that wait. -/
def Highest (waiting : List (Arrival Customer)) (arrival : Arrival Customer) : Prop :=
  ∀ other ∈ waiting, arrival.2 ≤ other.2

instance (waiting : List (Arrival Customer)) (arrival : Arrival Customer) : Decidable (Highest waiting arrival) :=
  inferInstanceAs (Decidable (∀ other ∈ waiting, _))

/-- The first of those with the highest priority is served; the others keep their order. -/
def serve (nqueues : Nat) (waiting : List (Arrival Customer)) :
    Operation Customer → Option (Option Customer × List (Arrival Customer))
  | .enqueue arrival =>
    if 0 ≤ arrival.2 ∧ arrival.2 < nqueues ∧ waiting.length < INT_MAX then some (none,waiting ++ [arrival]) else none
  | .dequeue => (waiting.find? (Highest waiting ·)).map fun first => (some first.1,waiting.eraseP (Highest waiting ·))

/-- The customers of a priority. -/
def ofClass (waiting : List (Arrival Customer)) (priority : Nat) : List Customer :=
  (waiting.filter fun arrival => arrival.2 = (priority : Int)).map Prod.fst

/-- A priority's queue holds its customers. -/
structure HoldsClass (q : FIFOQueue Customer) (customers : List Customer) : Prop where
  holds : Holds q.contents customers
  length : q.queueLength = customers.length
  capacity : q.capacity = INT_MAX

/-- Each priority's queue holds its customers, and the length is that of all of them together. -/
structure InStep (nqueues : Nat) (waiting : List (Arrival Customer)) (queue : PriorityQueue Customer) : Prop where
  number : queue.contents.length = nqueues
  classes : ∀ priority q, queue.contents[priority]? = some q → HoldsClass q (ofClass waiting priority)
  priorities : ∀ arrival ∈ waiting, 0 ≤ arrival.2 ∧ arrival.2 < nqueues
  length : queue.queueLength = waiting.length
  total : queue.queueLength = (queue.contents.map Queue.queueLength).sum
  capacity : queue.capacity = INT_MAX
  bound : queue.queueLength ≤ INT_MAX

/-- The customers of all arrivals. -/
def enqueued (operations : List (Operation Customer)) : List Customer :=
  operations.filterMap fun operation => match operation with
    | .enqueue arrival => some arrival.1
    | .dequeue => none

/-! ## One class -/

section Classes
variable {q : FIFOQueue Customer} {customers : List Customer} {customer : Customer}

theorem holdsClass_empty : HoldsClass ({ contents := {} } : FIFOQueue Customer) [] := ⟨holds_empty,rfl,rfl⟩

private theorem enqueue_holdsClass (held : HoldsClass q customers) (room : customers.length < INT_MAX) (customer : Customer) :
    ∃ next, FIFOQueue.enqueue customer q = some next ∧ HoldsClass next (customers ++ [customer]) := by
  obtain ⟨contents,inserted,holds⟩ := holds_insertAtBack held.holds customer
  have accepts : q.canAccept = true := by
    rw [Queue.canAccept,held.capacity,decide_eq_true_iff]
    exact held.length.trans_lt room
  refine ⟨{ q with contents,pop := q.pop + 1 },?_,holds,?_,held.capacity⟩
  · rw [FIFOQueue.enqueue,Queue.enqueue,if_pos accepts,inserted,Option.map_some]
  · have counted := held.length
    simp only [Queue.queueLength,List.length_append,List.length_singleton,Nat.cast_add,Nat.cast_one] at counted ⊢
    rw [counted]

private theorem dequeue_holdsClass (held : HoldsClass q (customer :: customers)) :
    ∃ next, FIFOQueue.dequeue q = some (customer,next) ∧ HoldsClass next customers := by
  obtain ⟨contents,removed,holds⟩ := holds_removeFromFront held.holds
  have counted : q.pop = customers.length + 1 := by exact_mod_cast held.length
  refine ⟨{ q with contents,pop := q.pop - 1 },?_,holds,?_,held.capacity⟩
  · rw [FIFOQueue.dequeue,Queue.dequeue,if_pos (by omega),removed,Option.map_some]
  · simp only [Queue.queueLength]
    omega

end Classes

/-! ## All classes -/

section Waiting
variable {waiting : List (Arrival Customer)} {priority : Nat}

private theorem ofClass_append (arrival : Arrival Customer) :
    ofClass (waiting ++ [arrival]) priority =
      if arrival.2 = priority then ofClass waiting priority ++ [arrival.1] else ofClass waiting priority := by
  rw [ofClass,List.filter_append,List.map_append]
  split
  · next same => simp [ofClass,same]
  · next other => simp [ofClass,other]

private theorem length_ofClass_le : (ofClass waiting priority).length ≤ waiting.length := by
  rw [ofClass,List.length_map]
  exact List.length_filter_le ..

private theorem filter_eraseP_self {α : Type} (test : α → Bool) (entries : List α) :
    (entries.eraseP test).filter test = (entries.filter test).tail := by
  induction entries with
  | nil => rfl
  | cons first rest ih =>
    cases passes : test first with
    | true => simp [passes]
    | false => simp [passes,ih]

private theorem filter_eraseP_other {α : Type} {test other : α → Bool} {entries : List α}
    (apart : ∀ entry ∈ entries, other entry = true → test entry = false) :
    (entries.eraseP test).filter other = entries.filter other := by
  induction entries with
  | nil => rfl
  | cons first rest ih =>
    obtain ⟨here,later⟩ := List.forall_mem_cons.mp apart
    cases passes : test first with
    | true =>
      have left : other first = false := by
        cases among : other first with
        | true => rw [here among] at passes; contradiction
        | false => rfl
      simp [passes,left]
    | false => simp only [List.eraseP_cons,passes,Bool.cond_false,List.filter_cons,ih later]

private theorem perm_eraseP {α : Type} {test : α → Bool} {entries : List α} {found : α}
    (first : entries.find? test = some found) : entries.Perm (found :: entries.eraseP test) := by
  induction entries with
  | nil => contradiction
  | cons entry rest ih =>
    cases passes : test entry with
    | true =>
      rw [List.find?_cons_of_pos passes,Option.some.injEq] at first
      rw [List.eraseP_cons_of_pos passes,first]
    | false =>
      have fails : ¬ test entry = true := by simp [passes]
      rw [List.find?_cons_of_neg fails] at first
      rw [List.eraseP_cons_of_neg fails]
      exact ((ih first).cons entry).trans (List.Perm.swap ..)

/-- The first customer of the highest priority is served, and leaves its class only. -/
private theorem serve_highest {customer : Customer} {customers : List Customer}
    (least : ∀ arrival ∈ waiting, (priority : Int) ≤ arrival.2) (highest : ofClass waiting priority = customer :: customers) :
    ∃ first, waiting.find? (Highest waiting ·) = some first ∧ first.1 = customer ∧
      ∀ other, ofClass (waiting.eraseP (Highest waiting ·)) other =
        if other = priority then customers else ofClass waiting other := by
  obtain ⟨first,rest,filtered,rfl,rfl⟩ := List.map_eq_cons_iff.mp highest
  have present : first ∈ waiting ∧ first.2 = priority := by
    have member : first ∈ waiting.filter fun arrival => arrival.2 = (priority : Int) := by simp [filtered]
    simpa using member
  have same : ∀ arrival ∈ waiting,
      (decide (Highest waiting arrival)) = decide (arrival.2 = (priority : Int)) := by
    intro arrival among
    rw [decide_eq_decide]
    constructor
    · intro most
      exact le_antisymm (present.2 ▸ most first present.1) (least arrival among)
    · rintro its other among'
      rw [its]
      exact least other among'
  have found : waiting.filter (Highest waiting ·) = first :: rest := (List.filter_congr same).trans filtered
  refine ⟨first,?_,rfl,?_⟩
  · rw [← List.head?_filter,found]
    rfl
  · intro other
    split
    · next its =>
      subst its
      have within : ∀ arrival ∈ waiting.eraseP (Highest waiting ·),
          decide (arrival.2 = (other : Int)) = decide (Highest waiting arrival) :=
        fun arrival left => (same arrival (List.mem_of_mem_eraseP left)).symm
      rw [ofClass,List.filter_congr within,filter_eraseP_self,found]
      rfl
    · next differs =>
      rw [ofClass,filter_eraseP_other]
      · rfl
      · intro arrival among its
        rw [same arrival among,decide_eq_false_iff_not]
        rw [decide_eq_true_iff] at its
        omega

/-- Removing from the queues of the priorities from this one on serves the first customer of the highest priority. -/
private def Removes (waiting : List (Arrival Customer)) (priority : Nat) (qs : Queues Customer) : Prop :=
  ∃ first next, waiting.find? (Highest waiting ·) = some first ∧ removeFromQueue qs = some (first.1,next) ∧
    next.length = qs.length ∧ (qs.map Queue.queueLength).sum = (next.map Queue.queueLength).sum + 1 ∧
    ∀ index q, next[index]? = some q →
      HoldsClass q (ofClass (waiting.eraseP (Highest waiting ·)) (priority + index))

private theorem removes_here {q : FIFOQueue Customer} {rest : Queues Customer} {customer : Customer}
    {customers : List Customer} (own : ofClass waiting priority = customer :: customers)
    (classes : ∀ index other, (q :: rest)[index]? = some other → HoldsClass other (ofClass waiting (priority + index)))
    (least : ∀ arrival ∈ waiting, (priority : Int) ≤ arrival.2) : Removes waiting priority (q :: rest) := by
  have held := classes 0 q rfl
  rw [Nat.add_zero,own] at held
  obtain ⟨first,found,rfl,others⟩ := serve_highest least own
  obtain ⟨left,dequeued,holds⟩ := dequeue_holdsClass held
  have several : 0 < q.queueLength := by rw [held.length,List.length_cons]; omega
  have fewer : q.queueLength = left.queueLength + 1 := by
    rw [held.length,holds.length]
    rfl
  refine ⟨first,left :: rest,found,?_,rfl,?_,?_⟩
  · rw [removeFromQueue,if_pos several,dequeued,Option.map_some]
  · rw [List.map_cons,List.map_cons,List.sum_cons,List.sum_cons,fewer]
    omega
  · rintro (- | index) other there
    · obtain rfl : left = other := Option.some.inj there
      rw [others,if_pos (Nat.add_zero priority)]
      exact holds
    · rw [others,if_neg (by omega)]
      exact classes (index + 1) other there

private theorem removes_below {q : FIFOQueue Customer} {rest : Queues Customer} (own : ofClass waiting priority = [])
    (held : HoldsClass q []) (later : Removes waiting (priority + 1) rest) : Removes waiting priority (q :: rest) := by
  obtain ⟨first,next,found,removed,number,total,holds⟩ := later
  have skipped : ¬ 0 < q.queueLength := by rw [held.length]; simp
  refine ⟨first,q :: next,found,?_,?_,?_,?_⟩
  · rw [removeFromQueue,if_neg skipped,removed,Option.map_some]
  · rw [List.length_cons,number,List.length_cons]
  · rw [List.map_cons,List.map_cons,List.sum_cons,List.sum_cons,total]
    omega
  · rintro (- | index) other there
    · obtain rfl : q = other := Option.some.inj there
      have none' : ofClass (waiting.eraseP (Highest waiting ·)) priority = [] := by
        rw [ofClass,List.map_eq_nil_iff] at own ⊢
        exact List.sublist_nil.mp (own ▸ List.eraseP_sublist.filter _)
      rw [Nat.add_zero,none']
      exact held
    · have kept := holds index other there
      rwa [show priority + 1 + index = priority + (index + 1) by omega] at kept

/-- The loop finds the queue of the highest priority. -/
private theorem removeFromQueue_spec {qs : Queues Customer}
    (classes : ∀ index q, qs[index]? = some q → HoldsClass q (ofClass waiting (priority + index)))
    (least : ∀ arrival ∈ waiting, (priority : Int) ≤ arrival.2)
    (greatest : ∀ arrival ∈ waiting, arrival.2 < priority + qs.length) (some' : waiting ≠ []) :
    Removes waiting priority qs := by
  induction qs generalizing priority with
  | nil =>
    obtain ⟨arrival,among⟩ := List.exists_mem_of_ne_nil waiting some'
    have above := least arrival among
    have below := greatest arrival among
    simp at below
    omega
  | cons q rest ih =>
    cases own : ofClass waiting priority with
    | cons customer customers => exact removes_here own classes least
    | nil =>
      have held := classes 0 q rfl
      rw [Nat.add_zero,own] at held
      have above : ∀ arrival ∈ waiting, ((priority + 1 : Nat) : Int) ≤ arrival.2 := by
        intro arrival among
        have differs : arrival.2 ≠ priority := by
          intro its
          have member : arrival.1 ∈ ofClass waiting priority := List.mem_map_of_mem (by simpa using ⟨among,its⟩)
          rw [own] at member
          contradiction
        have most := least arrival among
        push_cast
        omega
      have below : ∀ arrival ∈ waiting, arrival.2 < (priority + 1 : Nat) + rest.length := by
        intro arrival among
        have most := greatest arrival among
        rw [List.length_cons] at most
        push_cast at most ⊢
        omega
      refine removes_below own held (ih ?_ above below)
      intro index other there
      have holds := classes (index + 1) other there
      rwa [show priority + (index + 1) = priority + 1 + index by omega] at holds

/-- An arrival joins its class only. -/
private theorem insertIntoQueue_spec {qs : Queues Customer} {arrival : Arrival Customer}
    (classes : ∀ index q, qs[index]? = some q → HoldsClass q (ofClass waiting index)) (nonneg : 0 ≤ arrival.2)
    (inside : arrival.2 < qs.length) (room : waiting.length < INT_MAX) :
    ∃ next, insertIntoQueue arrival qs = some next ∧ next.length = qs.length ∧
      (next.map Queue.queueLength).sum = (qs.map Queue.queueLength).sum + 1 ∧
      ∀ index q, next[index]? = some q → HoldsClass q (ofClass (waiting ++ [arrival]) index) := by
  have within : arrival.2.toNat < qs.length := by omega
  have own := List.getElem?_eq_getElem within
  have held := classes _ _ own
  have fewer : (ofClass waiting arrival.2.toNat).length < INT_MAX :=
    lt_of_le_of_lt (by exact_mod_cast length_ofClass_le) room
  obtain ⟨joined,inserted,holds⟩ := enqueue_holdsClass held fewer arrival.1
  refine ⟨qs.set arrival.2.toNat joined,?_,List.length_set,?_,?_⟩
  · rw [insertIntoQueue,if_pos nonneg,own,Option.bind_some,inserted,Option.map_some]
  · have longer : joined.queueLength = qs[arrival.2.toNat].queueLength + 1 := by
      rw [holds.length,held.length,List.length_append]
      rfl
    rw [List.map_set,List.sum_set',dif_pos (by simpa using within),List.getElem_map,longer]
    omega
  · intro index q there
    rw [List.getElem?_set] at there
    rw [ofClass_append]
    by_cases same : arrival.2.toNat = index
    · subst same
      rw [if_pos rfl,if_pos within,Option.some.injEq] at there
      subst there
      rw [if_pos (Int.toNat_of_nonneg nonneg).symm]
      exact holds
    · rw [if_neg same] at there
      rw [if_neg (by omega)]
      exact classes index q there

end Waiting

/-! ## Every operation -/

section Operations
variable {nqueues : Nat} {waiting : List (Arrival Customer)} {queue : PriorityQueue Customer}

theorem inStep_build (nqueues : Nat) : InStep nqueues ([] : List (Arrival Customer)) (build nqueues) where
  number := List.length_replicate
  classes priority q there := by
    obtain ⟨-,rfl⟩ : priority < nqueues ∧ { contents := {} } = q := by
      simpa [build,List.getElem?_replicate] using there
    exact holdsClass_empty
  priorities arrival among := absurd among List.not_mem_nil
  length := rfl
  total := by simp [build,Queue.queueLength]
  capacity := rfl
  bound := by simp [build,Queue.queueLength]

/-- Served and waiting customers after an operation, and whether there are any. -/
private abbrev Agrees (nqueues : Nat) (expected : Option Customer × List (Arrival Customer))
    (called : Option Customer × PriorityQueue Customer) : Prop :=
  expected.1 = called.1 ∧ InStep nqueues expected.2 called.2

private theorem enqueue_agrees (inStep : InStep nqueues waiting queue) (arrival : Arrival Customer) :
    Option.Rel (Agrees nqueues) (serve nqueues waiting (.enqueue arrival)) (call queue (.enqueue arrival)) := by
  have accepts : Queue.canAccept queue = true ↔ waiting.length < INT_MAX := by
    rw [Queue.canAccept,decide_eq_true_iff,inStep.capacity]
    exact iff_of_eq (congrArg (· < INT_MAX) inStep.length)
  rw [serve,call,Queue.enqueue]
  by_cases valid : 0 ≤ arrival.2 ∧ arrival.2 < nqueues ∧ waiting.length < INT_MAX
  · obtain ⟨nonneg,below,room⟩ := valid
    obtain ⟨next,inserted,number,total,classes⟩ :=
      insertIntoQueue_spec inStep.classes nonneg (inStep.number ▸ below) room
    rw [if_pos ⟨nonneg,below,room⟩,if_pos (accepts.mpr room),inserted,Option.map_some,Option.map_some]
    have counted : queue.pop = waiting.length := inStep.length
    have summed : queue.pop = (queue.contents.map Queue.queueLength).sum := inStep.total
    refine .some ⟨rfl,⟨number.trans inStep.number,classes,?_,?_,?_,inStep.capacity,?_⟩⟩
    · intro other among
      rcases List.mem_append.mp among with before | now
      · exact inStep.priorities other before
      · rw [List.mem_singleton.mp now]
        exact ⟨nonneg,below⟩
    · simp only [Queue.queueLength,List.length_append,List.length_singleton,counted]
      rfl
    · simp only [Queue.queueLength] at total summed ⊢
      rw [total,summed]
    · simp only [Queue.queueLength]
      omega
  · rw [if_neg valid]
    by_cases room : waiting.length < INT_MAX
    · have outside : insertIntoQueue arrival queue.contents = none := by
        rw [insertIntoQueue]
        split
        · next nonneg =>
          have beyond : queue.contents.length ≤ arrival.2.toNat := by
            rw [inStep.number]
            by_contra inside
            exact valid ⟨nonneg,by omega,room⟩
          rw [List.getElem?_eq_none beyond,Option.bind_none]
        · rfl
      rw [if_pos (accepts.mpr room),outside]
      exact .none
    · rw [if_neg (accepts.not.mpr room)]
      exact .none

private theorem dequeue_agrees (inStep : InStep nqueues waiting queue) :
    Option.Rel (Agrees nqueues) (serve nqueues waiting .dequeue) (call queue .dequeue) := by
  have counted : queue.pop = waiting.length := inStep.length
  have summed : queue.pop = (queue.contents.map Queue.queueLength).sum := inStep.total
  rw [serve,call,Queue.dequeue]
  by_cases empty : waiting = []
  · subst empty
    rw [if_neg (by rw [counted]; simp)]
    exact .none
  · have classes : ∀ index q, queue.contents[index]? = some q → HoldsClass q (ofClass waiting (0 + index)) := by
      simpa using inStep.classes
    have greatest : ∀ arrival ∈ waiting, arrival.2 < (0 : Nat) + queue.contents.length := by
      intro arrival among
      rw [inStep.number]
      simpa using (inStep.priorities arrival among).2
    have least : ∀ arrival ∈ waiting, ((0 : Nat) : Int) ≤ arrival.2 := fun arrival among =>
      (inStep.priorities arrival among).1
    obtain ⟨first,next,found,removed,number,total,holds⟩ := removeFromQueue_spec classes least greatest empty
    have some' := List.length_pos_of_ne_nil empty
    have member := List.mem_of_find?_eq_some found
    have fewer : (waiting.eraseP (Highest waiting ·)).length = waiting.length - 1 :=
      List.length_eraseP_of_mem member (@List.find?_some _ (fun arrival => decide (Highest waiting arrival)) _ _ found)
    rw [if_pos (by omega),found,removed,Option.map_some,Option.map_some,Option.map_some]
    refine .some ⟨rfl,⟨number.trans inStep.number,by simpa using holds,?_,?_,?_,inStep.capacity,?_⟩⟩
    · exact fun arrival left => inStep.priorities arrival (List.mem_of_mem_eraseP left)
    · simp only [Queue.queueLength]
      omega
    · simp only [Queue.queueLength] at total summed ⊢
      omega
    · have most : queue.pop ≤ INT_MAX := inStep.bound
      simp only [Queue.queueLength]
      omega

/-- Nobody is lost or served twice. -/
private theorem enqueued_perm (operations : List (Operation Customer)) {served : List Customer}
    {left : List (Arrival Customer)} (executed : execute (serve nqueues) waiting operations = some (served,left)) :
    (waiting.map Prod.fst ++ enqueued operations).Perm (served ++ left.map Prod.fst) := by
  induction operations generalizing waiting served left with
  | nil =>
    cases executed
    simp [enqueued]
  | cons operation rest ih =>
    obtain ⟨called,first,executed⟩ := Option.bind_eq_some_iff.mp executed
    obtain ⟨⟨laterServed,laterLeft⟩,later,same⟩ := Option.map_eq_some_iff.mp executed
    cases same
    have tail := ih later
    cases operation with
    | enqueue arrival =>
      rw [serve] at first
      split at first
      · cases first
        simpa [enqueued] using tail
      · contradiction
    | dequeue =>
      obtain ⟨next,found,rfl⟩ := Option.map_eq_some_iff.mp first
      have picked := perm_eraseP found
      exact ((picked.map Prod.fst).append_right _).trans (tail.cons next.1)

end Operations

/-- For any number of priorities and all sequences: the queue takes the same operations as the customers in their order
    of arrival do and serves the same ones, it is in step with those that wait, and all that were enqueued are either
    served or wait. -/
theorem priority_discipline (nqueues : Nat) (operations : List (Operation Customer)) :
    Option.Rel (fun expected executed => expected.1 = executed.1 ∧ InStep nqueues expected.2 executed.2 ∧
        (enqueued operations).Perm (executed.1 ++ expected.2.map Prod.fst))
      (execute (serve nqueues) [] operations) (execute call (build nqueues) operations) := by
  have simulated := execute_simulates (fun waiting queue operation inStep => by
    cases operation with
    | enqueue arrival => exact enqueue_agrees inStep arrival
    | dequeue => exact dequeue_agrees inStep) (inStep_build nqueues) operations
  cases expected : execute (serve nqueues) ([] : List (Arrival Customer)) operations with
  | none =>
    rw [expected] at simulated
    generalize execute call (build nqueues) operations = executed at simulated ⊢
    cases simulated
    exact .none
  | some result =>
    have conserved := enqueued_perm operations expected
    rw [expected] at simulated
    generalize execute call (build nqueues) operations = executed at simulated ⊢
    cases simulated with
    | some agree => exact .some ⟨agree.1,agree.2,agree.1 ▸ conserved⟩

end Vexjine.PriorityQueues
