import Mathlib.Data.Multiset.Filter
import Vexjine.ThreadQueue

/-!
# Adaptible priority queues

A queue is a heap in a container of pointers, where threads are also erased at any position. What it holds is a
multiset: a thread may be in it more than once. Threads with equal run times are popped in any order.
-/

namespace Vexjine.AdaptiblePQueues
open Heaps ThreadQueue
set_option linter.unusedSectionVars false

variable {Thread : Type*} [DecidableEq Thread]

inductive Operation (Thread : Type*)
  | push (thread : Thread)
  /-- Pops the top, if there is one. -/
  | getNext
  | erase (thread : Thread)
  | eraseAll (thread : Thread)
  | update

/-! ## The code -/

section Code

/-- The loop of `eraseAll`: the iterator is a position in the container, which gets shorter. -/
def eraseFrom (thread : Thread) (it : Nat) (threads : List Thread) : List Thread :=
  if inside : it < threads.length then
    if threads[it] = thread then eraseFrom thread it (threads.eraseIdx it) else eraseFrom thread (it + 1) threads
  else threads
termination_by threads.length - it
decreasing_by
  · rw [List.length_eraseIdx_of_lt inside]
    omega
  · omega

variable (algorithms : HeapAlgorithms Thread Int) (queue : Queue Thread)

def eraseAll (thread : Thread) : Queue Thread :=
  Queue.update algorithms { queue with threads := eraseFrom thread 0 queue.threads }

def getNext : Option Thread × Queue Thread :=
  match queue.threads with
  | [] => (none,queue)
  | thread :: _ => (some thread,queue.pop algorithms)

/-- Of `asserted` threads, `ThreadQueue` asserts that they are in the queue behind the push and not in front of it;
    these are threads in real time. Nothing is asserted of the queue of native waiting threads. -/
def push (asserted : Thread → Bool) (thread : Thread) : Option (Queue Thread) :=
  if asserted thread ∧ thread ∈ queue.threads then none
  else
    let pushed := queue.push algorithms thread
    if asserted thread ∧ thread ∉ pushed.threads then none else some pushed

/-- What the operation returns, and the queue behind it; a failed assertion aborts. -/
def perform (asserted : Thread → Bool) : Operation Thread → Option (Option Thread × Queue Thread)
  | .push thread => (push algorithms queue asserted thread).map fun pushed => (none,pushed)
  | .getNext => some (getNext algorithms queue)
  | .erase thread => some (none,queue.erase algorithms thread)
  | .eraseAll thread => some (none,eraseAll algorithms queue thread)
  | .update => some (none,queue.update algorithms)

def performAll (asserted : Thread → Bool) :
    Queue Thread → List (Operation Thread) → Option (List (Option Thread) × Queue Thread)
  | queue, [] => some ([],queue)
  | queue, operation :: rest => (perform algorithms queue asserted operation).bind fun first =>
    (performAll asserted first.2 rest).map fun later => (first.1 :: later.1,later.2)

end Code

/-! ## Multisets of threads -/

section Multisets
variable (asserted : Thread → Bool) (estimatedRealTime : Thread → Int)

/-- What an operation returns and what it leaves. -/
inductive Performs (contents : Multiset Thread) : Operation Thread → Option Thread → Multiset Thread → Prop
  | push {thread : Thread} : ¬ (asserted thread ∧ thread ∈ contents) →
    Performs contents (.push thread) none (thread ::ₘ contents)
  | getNextOfEmpty : contents = 0 → Performs contents .getNext none 0
  | getNext {thread : Thread} : thread ∈ contents →
    (∀ other ∈ contents, estimatedRealTime thread ≤ estimatedRealTime other) →
    Performs contents .getNext (some thread) (contents.erase thread)
  | erase {thread : Thread} : Performs contents (.erase thread) none (contents.erase thread)
  | eraseAll {thread : Thread} : Performs contents (.eraseAll thread) none (contents.filter (· ≠ thread))
  | update : Performs contents .update none contents

/-- What a sequence of operations returns and what it leaves, or that it aborts. -/
inductive Behaves : Multiset Thread → List (Operation Thread) → Option (List (Option Thread) × Multiset Thread) → Prop
  | nil {contents : Multiset Thread} : Behaves contents [] (some ([],contents))
  | abort {contents : Multiset Thread} {thread : Thread} {rest : List (Operation Thread)} :
    asserted thread → thread ∈ contents → Behaves contents (.push thread :: rest) none
  | cons {contents next : Multiset Thread} {operation : Operation Thread} {returned : Option Thread}
    {rest : List (Operation Thread)} {outcome : Option (List (Option Thread) × Multiset Thread)} :
    Performs asserted estimatedRealTime contents operation returned next → Behaves next rest outcome →
    Behaves contents (operation :: rest) (outcome.map fun later => (returned :: later.1,later.2))

end Multisets

/-! ## One operation -/

/-- By induction along the loop: what the iterator has passed stays. -/
theorem eraseFrom_eq (thread : Thread) (it : Nat) (threads : List Thread) :
    eraseFrom thread it threads = threads.take it ++ (threads.drop it).filter (· ≠ thread) := by
  induction it, threads using eraseFrom.induct thread with
  | case1 it threads inside found ih =>
    rw [eraseFrom,dif_pos inside,if_pos found,ih,List.drop_eq_getElem_cons inside,
      List.filter_cons_of_neg (by simp [found]),List.eraseIdx_eq_take_drop_succ]
    have passed : (threads.take it).length = it := List.length_take_of_le inside.le
    rw [List.take_append_of_le_length passed.ge,List.take_take,Nat.min_self,List.drop_append_of_le_length passed.ge,
      List.drop_eq_nil_of_le passed.le,List.nil_append]
  | case2 it threads inside other ih =>
    rw [eraseFrom,dif_pos inside,if_neg other,ih,List.drop_eq_getElem_cons inside,
      List.filter_cons_of_pos (by simp [other]),List.take_succ_eq_append_getElem inside,List.append_assoc,
      List.singleton_append]
  | case3 it threads outside =>
    rw [eraseFrom,dif_neg outside,List.take_of_length_le (not_lt.mp outside),List.drop_eq_nil_of_le (not_lt.mp outside),
      List.filter_nil,List.append_nil]

/-- What holds of the queue between any two operations. -/
structure Keeps (estimatedRealTime : Thread → Int) (queue : Queue Thread) : Prop where
  valid : queue.Valid
  sameTimes : queue.estimatedRealTime = estimatedRealTime

section Operations
variable {algorithms : HeapAlgorithms Thread Int} {asserted : Thread → Bool} {estimatedRealTime : Thread → Int}
  {queue next : Queue Thread} {returned : Option Thread} {thread : Thread}

private theorem update_keeps {threads : List Thread} (keeps : Keeps estimatedRealTime queue) :
    Keeps estimatedRealTime (Queue.update algorithms { queue with threads := threads }) :=
  ⟨Queue.update_valid _,keeps.sameTimes⟩

private theorem update_contents (threads : List Thread) :
    ((Queue.update algorithms { queue with threads := threads }).threads : Multiset Thread) = threads :=
  Multiset.coe_eq_coe.mpr (algorithms.makeHeap_perm _ _)

private theorem push_contents (keeps : Keeps estimatedRealTime queue) (thread : Thread) :
    ((queue.push algorithms thread).threads : Multiset Thread) = thread ::ₘ queue.threads :=
  Multiset.coe_eq_coe.mpr (algorithms.pushHeap_perm thread (Queue.valid_iff.mp keeps.valid))

/-- The second assertion never fails. -/
private theorem push_eq (keeps : Keeps estimatedRealTime queue) (thread : Thread) :
    push algorithms queue asserted thread =
      if asserted thread ∧ thread ∈ queue.threads then none else some (queue.push algorithms thread) := by
  have member : thread ∈ (queue.push algorithms thread).threads := by
    rw [← Multiset.mem_coe,push_contents keeps]
    exact Multiset.mem_cons_self ..
  rw [push]
  by_cases stops : asserted thread ∧ thread ∈ queue.threads
  · rw [if_pos stops,if_pos stops]
  · rw [if_neg stops,if_neg stops]
    exact if_neg fun fails => fails.2 member

private theorem push_performs (keeps : Keeps estimatedRealTime queue)
    (pushed : push algorithms queue asserted thread = some next) :
    Performs asserted estimatedRealTime queue.threads (.push thread) none next.threads ∧ Keeps estimatedRealTime next := by
  rw [push_eq keeps] at pushed
  by_cases stops : asserted thread ∧ thread ∈ queue.threads
  · rw [if_pos stops] at pushed
    contradiction
  · rw [if_neg stops] at pushed
    cases pushed
    rw [push_contents keeps]
    exact ⟨.push stops,Queue.push_valid keeps.valid thread,keeps.sameTimes⟩

private theorem getNext_performs (keeps : Keeps estimatedRealTime queue)
    (popped : getNext algorithms queue = (returned,next)) :
    Performs asserted estimatedRealTime queue.threads .getNext returned next.threads ∧ Keeps estimatedRealTime next := by
  rw [getNext] at popped
  split at popped
  case h_1 empty =>
    cases popped
    rw [empty]
    exact ⟨.getNextOfEmpty rfl,keeps⟩
  case h_2 thread others threads =>
    cases popped
    have tail := algorithms.popHeap_perm (Queue.valid_iff.mp keeps.valid)
    have contents : ((queue.pop algorithms).threads : Multiset Thread) =
        (queue.threads : Multiset Thread).erase thread := by
      rw [threads,List.tail_cons,← threads] at tail
      rw [Queue.pop,Multiset.coe_eq_coe.mpr tail,threads,Multiset.coe_erase,List.erase_cons_head]
    have least : ∀ other ∈ queue.threads, estimatedRealTime thread ≤ estimatedRealTime other := by
      rw [← keeps.sameTimes]
      exact keeps.valid.2 thread (by rw [threads]; rfl)
    have member : thread ∈ queue.threads := by
      rw [threads]
      exact List.mem_cons_self
    rw [contents]
    exact ⟨.getNext member least,Queue.pop_valid keeps.valid,keeps.sameTimes⟩

private theorem erase_performs (keeps : Keeps estimatedRealTime queue) (thread : Thread) :
    Performs asserted estimatedRealTime queue.threads (.erase thread) none (queue.erase algorithms thread).threads ∧
      Keeps estimatedRealTime (queue.erase algorithms thread) := by
  rw [Queue.erase,update_contents,← Multiset.coe_erase]
  exact ⟨.erase,update_keeps keeps⟩

private theorem eraseAll_performs (keeps : Keeps estimatedRealTime queue) (thread : Thread) :
    Performs asserted estimatedRealTime queue.threads (.eraseAll thread) none (eraseAll algorithms queue thread).threads ∧
      Keeps estimatedRealTime (eraseAll algorithms queue thread) := by
  rw [eraseAll,update_contents,eraseFrom_eq,List.take_zero,List.drop_zero,List.nil_append,← Multiset.filter_coe]
  exact ⟨.eraseAll,update_keeps keeps⟩

private theorem perform_performs (keeps : Keeps estimatedRealTime queue) {operation : Operation Thread}
    (performed : perform algorithms queue asserted operation = some (returned,next)) :
    Performs asserted estimatedRealTime queue.threads operation returned next.threads ∧ Keeps estimatedRealTime next := by
  cases operation with
  | push thread =>
    obtain ⟨pushed,executed,same⟩ := Option.map_eq_some_iff.mp performed
    cases same
    exact push_performs keeps executed
  | getNext => exact getNext_performs keeps (Option.some.inj performed)
  | erase thread =>
    cases performed
    exact erase_performs keeps thread
  | eraseAll thread =>
    cases performed
    exact eraseAll_performs keeps thread
  | update =>
    cases performed
    rw [update_contents]
    exact ⟨.update,update_keeps keeps⟩

private theorem perform_none (keeps : Keeps estimatedRealTime queue) {operation : Operation Thread}
    (aborts : perform algorithms queue asserted operation = none) :
    ∃ thread, operation = .push thread ∧ asserted thread ∧ thread ∈ queue.threads := by
  cases operation with
  | push thread =>
    rw [perform,push_eq keeps,Option.map_eq_none_iff] at aborts
    by_cases stops : asserted thread ∧ thread ∈ queue.threads
    · exact ⟨thread,rfl,stops⟩
    · rw [if_neg stops] at aborts
      contradiction
  | getNext | erase thread | eraseAll thread | update => contradiction

end Operations

/-! ## Sequences of operations -/

/-- By induction on the operations, from any valid queue. -/
private theorem performAll_behaves (algorithms : HeapAlgorithms Thread Int) (asserted : Thread → Bool)
    (estimatedRealTime : Thread → Int) (operations : List (Operation Thread)) :
    ∀ queue : Queue Thread, Keeps estimatedRealTime queue → Behaves asserted estimatedRealTime queue.threads operations
      ((performAll algorithms asserted queue operations).map fun outcome =>
        (outcome.1,(outcome.2.threads : Multiset Thread))) := by
  induction operations with
  | nil =>
    intro queue keeps
    exact .nil
  | cons operation rest ih =>
    intro queue keeps
    rw [performAll]
    cases performed : perform algorithms queue asserted operation with
    | none =>
      obtain ⟨thread,rfl,asserts,member⟩ := perform_none keeps performed
      exact .abort asserts member
    | some first =>
      obtain ⟨returned,next⟩ := first
      obtain ⟨performs,kept⟩ := perform_performs keeps performed
      have later := Behaves.cons performs (ih next kept)
      rw [Option.map_map] at later
      rw [Option.bind_some,Option.map_map]
      exact later

/-- The contents are the multiset that the operations leave, and a thread with the least run time is popped. -/
theorem adaptiblePQueue_behaves (algorithms : HeapAlgorithms Thread Int) (asserted : Thread → Bool)
    (estimatedRealTime : Thread → Int) (operations : List (Operation Thread)) :
    Behaves asserted estimatedRealTime 0 operations
      ((performAll algorithms asserted ⟨[],estimatedRealTime⟩ operations).map fun outcome =>
        (outcome.1,(outcome.2.threads : Multiset Thread))) := by
  have empty : Keeps estimatedRealTime (⟨[],estimatedRealTime⟩ : Queue Thread) :=
    ⟨Queue.valid_iff.mpr isHeap_nil,rfl⟩
  exact performAll_behaves algorithms asserted estimatedRealTime operations _ empty

end Vexjine.AdaptiblePQueues
