import Vexjine.EventSimulation
import Mathlib.Algebra.Group.Basic
import Mathlib.Tactic.Abel

/-!
# The preemptive-resume node

`PreemptiveResumeNode` has one server. An arriving customer takes the server from the one in service, whose
end-of-service event is descheduled and whose demand becomes what is left of it. The end-of-service event first
forwards its customer, which may enter any node at once, and only then gives the server to the next one in the
queue. Times are exact.
-/

namespace Vexjine.PreemptiveResume
open Vexjine.LinkedLists
open Vexjine.Diary
open Vexjine.EventSimulation (Sim Position holds_schedule holds_deschedule)
open Vexjine.Runs
set_option linter.unusedSectionVars false

structure EndServiceEvent (Customer Time : Type) where
  id : Nat
  customer : Customer
  invokeTime : Time
  deriving DecidableEq

/-- The node's events and those of the rest of the network. -/
inductive Event (Customer Time : Type)
  | endService (e : EndServiceEvent Customer Time)
  | other (id : Nat) (invokeTime : Time)
  deriving DecidableEq

def Event.invokeTime {Customer Time : Type} : Event Customer Time → Time
  | .endService e => e.invokeTime
  | .other _ time => time

/-- The end-of-service events. -/
def ends {Customer Time : Type} (events : List (Event Customer Time)) : List (EndServiceEvent Customer Time) :=
  events.filterMap fun
    | .endService e => some e
    | .other .. => none

/-- Where a queue of infinite capacity inserts at its head; every queue is served from the front. -/
structure Queue (Customer : Type) where
  insertAtHeadOfQueue : Customer → List Customer → List Customer
  perm : ∀ c customers, (insertAtHeadOfQueue c customers).Perm (c :: customers)

/-- `FIFOQueue`, `LIFOQueue` and `RandomQueue`. -/
def Queue.single (Customer : Type) : Queue Customer where
  insertAtHeadOfQueue := List.cons
  perm _ _ := List.Perm.refl _

/-- `PriorityQueue`, with its queues one behind the other. -/
def Queue.byPriority {Customer : Type} (getPriority : Customer → Nat) : Queue Customer where
  insertAtHeadOfQueue c customers :=
    customers.takeWhile (fun other => decide (getPriority other < getPriority c)) ++
      c :: customers.dropWhile fun other => decide (getPriority other < getPriority c)
  perm c customers := Insertions.perm_insertion _ c customers

variable {Customer Time : Type} [DecidableEq Customer] [AddCommGroup Time] [LinearOrder Time]

/-- The node with the simulator that it runs in. -/
structure PreemptiveResumeNode (Customer Time : Type) where
  sim : Sim (Event Customer Time) Time
  nextId : Nat := 0
  resources : Nat := 1
  queue : List Customer := []
  serviceDemand : Customer → Time
  lastEndServiceEvent : Option (EndServiceEvent Customer Time) := none

inductive Step (Customer Time : Type)
  /-- A customer enters with this sample of the service time. -/
  | enter (c : Customer) (sample : Time)
  | schedule (id : Nat) (invokeTime : Time)
  | deschedule (id : Nat) (invokeTime : Time)
  | go
  /-- The loop of the simulator, which is not stopped between the move of the clock and the event. -/
  | iterate (stops : Bool)
  /-- The end of another event's `invoke`. -/
  | returns
  /-- What the node's own event does after it has forwarded its customer. -/
  | release
  deriving DecidableEq

namespace PreemptiveResumeNode
variable (discipline : Queue Customer) (node : PreemptiveResumeNode Customer Time)

def invokeService (c : Customer) : Option (PreemptiveResumeNode Customer Time) :=
  let e : EndServiceEvent Customer Time := ⟨node.nextId,c,node.sim.vtime + node.serviceDemand c⟩
  (node.sim.schedule Event.invokeTime (.endService e)).map fun sim =>
    { node with sim,nextId := node.nextId + 1,lastEndServiceEvent := some e }

def remainingServiceTime (last : EndServiceEvent Customer Time) : Time := last.invokeTime - node.sim.vtime

/-- The branch of `accept` that preempts. -/
def preempt : Option (PreemptiveResumeNode Customer Time) :=
  node.lastEndServiceEvent.bind fun last => (node.sim.deschedule (.endService last)).map fun sim =>
    { node with
      sim
      serviceDemand := Function.update node.serviceDemand last.customer (node.remainingServiceTime last)
      queue := discipline.insertAtHeadOfQueue last.customer node.queue }

def accept (c : Customer) : Option (PreemptiveResumeNode Customer Time) :=
  if 0 < node.resources then { node with resources := node.resources - 1 }.invokeService c
  else (node.preempt discipline).bind fun preempted => preempted.invokeService c

def enter (c : Customer) (sample : Time) : Option (PreemptiveResumeNode Customer Time) :=
  { node with serviceDemand := Function.update node.serviceDemand c sample }.accept discipline c

/-- A release of what is not held fails its check. -/
def releaseResource : Option (PreemptiveResumeNode Customer Time) :=
  match node.queue with
  | c :: rest => { node with queue := rest }.invokeService c
  | [] => if node.resources < 1 then some { node with resources := node.resources + 1 } else none

/-- The customers in the queue and those whose service is to end. -/
def customers : List Customer := node.queue ++ (ends node.sim.diary.contents).map EndServiceEvent.customer

/-- A step of the simulator. -/
def simulate (s : EventSimulation.Step (Event Customer Time)) : Option (PreemptiveResumeNode Customer Time) :=
  (EventSimulation.step Event.invokeTime node.sim s).map fun sim => { node with sim }

/-- A customer is in one place: one in the node does not enter it. -/
def step : Step Customer Time → Option (PreemptiveResumeNode Customer Time)
  | .enter c sample =>
    if node.sim.position = .looping ∨ c ∈ node.customers then none else node.enter discipline c sample
  | .schedule id time => node.simulate (.schedule (.other id time))
  | .deschedule id time => node.simulate (.deschedule (.other id time))
  | .go => node.simulate .go
  | .iterate stops => node.simulate (.iterate stops false)
  | .returns =>
    match node.sim.position with
    | .invoking (.other ..) => node.simulate .returns
    | .invoking (.endService _) | .outside | .looping => none
  | .release =>
    match node.sim.position with
    | .invoking (.endService _) => node.releaseResource.bind fun released => released.simulate .returns
    | .invoking (.other ..) | .outside | .looping => none

end PreemptiveResumeNode

/-! ## The law -/

/-- The demand that a customer came with, the service it has had since, and the time from which the server has
    served its customer. -/
structure History (Customer Time : Type) where
  demanded : Customer → Time
  received : Customer → Time
  servingSince : Time

structure Recorded (Customer Time : Type) where
  node : PreemptiveResumeNode Customer Time
  history : History Customer Time

namespace History
variable (history : History Customer Time)

/-- The server leaves a customer. -/
def serve (c : Customer) (now : Time) : History Customer Time :=
  { history with received := Function.update history.received c (history.received c + (now - history.servingSince)) }

/-- The history after a step that led from one node to another. -/
def after (node next : PreemptiveResumeNode Customer Time) : Step Customer Time → History Customer Time
  | .enter c sample =>
    let left := if 0 < node.resources then history else
      match node.lastEndServiceEvent with
      | some last => history.serve last.customer node.sim.vtime
      | none => history
    { demanded := Function.update left.demanded c sample
      received := Function.update left.received c 0
      servingSince := node.sim.vtime }
  | .iterate _ =>
    match next.sim.position with
    | .invoking (.endService e) => history.serve e.customer next.sim.vtime
    | .invoking (.other ..) | .outside | .looping => history
  | .release => { history with servingSince := node.sim.vtime }
  | .schedule .. | .deschedule .. | .go | .returns => history

end History

section Law
variable (discipline : Queue Customer) (state : Recorded Customer Time)

def record (s : Step Customer Time) : Option (Recorded Customer Time) :=
  (state.node.step discipline s).map fun node => ⟨node,state.history.after state.node node s⟩

/-- An arrival that preempts finds the end-of-service event pending, and a departing customer has been served for as
    long as it demanded. -/
def Conserves : Step Customer Time → Prop
  | .enter .. => state.node.sim.position ≠ .looping → state.node.resources = 0 →
      ∃ e, state.node.lastEndServiceEvent = some e ∧ .endService e ∈ state.node.sim.diary.contents
  | .iterate stops => ∀ next ∈ record discipline state (.iterate stops),
      ∀ e, next.node.sim.position = .invoking (.endService e) →
        next.history.received e.customer = next.history.demanded e.customer
  | .schedule .. | .deschedule .. | .go | .returns | .release => True

/-- No customer enters while the node forwards one. -/
def NoFeedback : Step Customer Time → Prop
  | .enter .. => ∀ e, state.node.sim.position ≠ .invoking (.endService e)
  | .schedule .. | .deschedule .. | .go | .iterate _ | .returns | .release => True

end Law

/-! ## The invariant -/

section Ends
variable {events later : List (Event Customer Time)} {e : EndServiceEvent Customer Time}

@[simp] theorem ends_nil : ends ([] : List (Event Customer Time)) = [] := rfl

@[simp] theorem ends_endService : ends (.endService e :: events) = e :: ends events := rfl

@[simp] theorem ends_other (id : Nat) (time : Time) : ends (.other id time :: events) = ends events := rfl

theorem mem_ends : e ∈ ends events ↔ .endService e ∈ events := by
  unfold ends
  rw [List.mem_filterMap]
  constructor
  · rintro ⟨event,member,same⟩
    cases event with
    | endService other =>
      simp only [Option.some.injEq] at same
      exact same ▸ member
    | other _ _ => cases same
  · intro member
    exact ⟨_,member,rfl⟩

theorem ends_perm (arranged : later.Perm events) : (ends later).Perm (ends events) := arranged.filterMap _

end Ends

/-- What the server does, and which end-of-service events are pending then. -/
inductive Phase (state : Recorded Customer Time) (events : List (Event Customer Time)) : Prop
  | idle (free : state.node.resources = 1) (stays : ∀ e, state.node.sim.position ≠ .invoking (.endService e))
      (nothing : ends events = []) (empty : state.node.queue = [])
  | serving (e : EndServiceEvent Customer Time) (busy : state.node.resources = 0)
      (stays : ∀ e, state.node.sim.position ≠ .invoking (.endService e))
      (last : state.node.lastEndServiceEvent = some e) (pending : ends events = [e])
      (outside : e.customer ∉ state.node.queue)
      (account : state.history.received e.customer + (e.invokeTime - state.history.servingSince) =
        state.history.demanded e.customer)
  | leaving (e : EndServiceEvent Customer Time) (busy : state.node.resources = 0)
      (leaves : state.node.sim.position = .invoking (.endService e)) (nothing : ends events = [])

structure Kept (state : Recorded Customer Time) (events : List (Event Customer Time)) : Prop where
  holds : Holds state.node.sim.diary events
  distinct : state.node.queue.Nodup
  /-- What a waiting customer has had and what is left make up its demand. -/
  waiting : ∀ c ∈ state.node.queue,
    state.history.received c + state.node.serviceDemand c = state.history.demanded c
  phase : Phase state events

section Steps
variable {discipline : Queue Customer} {state next : Recorded Customer Time} {node : PreemptiveResumeNode Customer Time}
  {events later : List (Event Customer Time)} {s : Step Customer Time} {c : Customer}

/-- The event that `invokeService` schedules. -/
private def serviceOf (node : PreemptiveResumeNode Customer Time) (c : Customer) : EndServiceEvent Customer Time :=
  ⟨node.nextId,c,node.sim.vtime + node.serviceDemand c⟩

variable (node) in
private theorem invokeService_holds (holds : Holds node.sim.diary events) (c : Customer) :
    ∃ diary later, node.invokeService c = some { node with
        sim := { node.sim with diary },nextId := node.nextId + 1,lastEndServiceEvent := some (serviceOf node c) } ∧
      Holds diary later ∧ (ends later).Perm (serviceOf node c :: ends events) := by
  obtain ⟨diary,later,scheduled,holds',arranged⟩ := holds_schedule holds Event.invokeTime (.endService (serviceOf node c))
  refine ⟨diary,later,?_,holds',ends_perm arranged⟩
  exact congrArg (Option.map _) scheduled

/-- A change of the simulator that neither ends a service nor schedules one. -/
private theorem kept_simulator {sim : Sim (Event Customer Time) Time} (kept : Kept state events)
    (holds : Holds sim.diary later) (same : (ends later).Perm (ends events))
    (position : ∀ e, sim.position = .invoking (.endService e) ↔ state.node.sim.position = .invoking (.endService e)) :
    Kept ⟨{ state.node with sim },state.history⟩ later where
  holds := holds
  distinct := kept.distinct
  waiting := kept.waiting
  phase := by
    cases kept.phase with
    | idle free stays nothing empty =>
      rw [nothing,List.perm_nil] at same
      exact .idle free (fun e leaves => stays e ((position e).mp leaves)) same empty
    | serving e busy stays last pending outside account =>
      rw [pending,List.perm_singleton] at same
      exact .serving e busy (fun e leaves => stays e ((position e).mp leaves)) last same outside account
    | leaving e busy leaves nothing =>
      rw [nothing,List.perm_nil] at same
      exact .leaving e busy ((position e).mpr leaves) same

/-- The node after `invokeService`, at another place of the simulator. -/
private def served (node : PreemptiveResumeNode Customer Time) (c : Customer) (diary : LinkedList (Event Customer Time))
    (position : Position (Event Customer Time)) : PreemptiveResumeNode Customer Time :=
  { node with
    sim := { node.sim with diary,position },nextId := node.nextId + 1,lastEndServiceEvent := some (serviceOf node c) }

/-- A customer starts service at a server that is taken for it, with no other service to end. -/
private theorem kept_served {history : History Customer Time} {diary : LinkedList (Event Customer Time)}
    (position : Position (Event Customer Time)) (holds : Holds diary later) (pending : (ends later).Perm [serviceOf node c])
    (busy : node.resources = 0) (stays : ∀ e, position ≠ .invoking (.endService e)) (distinct : node.queue.Nodup)
    (waiting : ∀ other ∈ node.queue, history.received other + node.serviceDemand other = history.demanded other)
    (outside : c ∉ node.queue) (now : history.servingSince = node.sim.vtime)
    (demand : history.received c + node.serviceDemand c = history.demanded c) :
    Kept ⟨served node c diary position,history⟩ later where
  holds := holds
  distinct := distinct
  waiting := waiting
  phase := by
    refine .serving (serviceOf node c) busy stays rfl (List.perm_singleton.mp pending) outside ?_
    show history.received c + (node.sim.vtime + node.serviceDemand c - history.servingSince) = history.demanded c
    rw [now,add_sub_cancel_left,demand]

private theorem not_mem_customers (kept : Kept state events) (absent : c ∉ state.node.customers) :
    c ∉ state.node.queue ∧ ∀ e ∈ ends events, e.customer ≠ c := by
  rw [PreemptiveResumeNode.customers,contents_eq kept.holds,List.mem_append,not_or] at absent
  refine ⟨absent.1,?_⟩
  rintro e member rfl
  exact absent.2 (List.mem_map_of_mem member)

/-- The node that a customer enters, before `accept`. -/
private def arrived (node : PreemptiveResumeNode Customer Time) (c : Customer) (sample : Time) :
    PreemptiveResumeNode Customer Time :=
  { node with serviceDemand := Function.update node.serviceDemand c sample }

/-- The same with its server claimed. -/
private def claimed (node : PreemptiveResumeNode Customer Time) (c : Customer) (sample : Time) :
    PreemptiveResumeNode Customer Time :=
  { arrived node c sample with resources := node.resources - 1 }

/-- An arrival at a free server. -/
private theorem kept_claim {sample : Time} (kept : Kept state events) (free : state.node.resources = 1)
    (stays : ∀ e, state.node.sim.position ≠ .invoking (.endService e)) (nothing : ends events = [])
    (empty : state.node.queue = []) (entered : state.node.enter discipline c sample = some node) :
    ∃ events, Kept ⟨node,state.history.after state.node node (.enter c sample)⟩ events := by
  have available : 0 < (arrived state.node c sample).resources := by
    show 0 < state.node.resources
    omega
  obtain ⟨diary,later,same,holds,pending⟩ := invokeService_holds (claimed state.node c sample) kept.holds c
  have accepted : state.node.enter discipline c sample = (claimed state.node c sample).invokeService c := if_pos available
  rw [← accepted,entered,Option.some.injEq] at same
  subst same
  rw [nothing] at pending
  have unqueued : (claimed state.node c sample).queue = [] := empty
  refine ⟨later,kept_served state.node.sim.position holds pending ?_ stays kept.distinct ?_ ?_ rfl ?_⟩
  · show state.node.resources - 1 = 0
    omega
  · intro other member
    rw [unqueued] at member
    cases member
  · rw [unqueued]
    exact List.not_mem_nil
  · simp [History.after,claimed,arrived]

/-- The node after the preemption of the customer of an event. -/
private def preempted (discipline : Queue Customer) (node : PreemptiveResumeNode Customer Time)
    (e : EndServiceEvent Customer Time) (diary : LinkedList (Event Customer Time)) : PreemptiveResumeNode Customer Time :=
  { node with
    sim := { node.sim with diary }
    serviceDemand := Function.update node.serviceDemand e.customer (node.remainingServiceTime e)
    queue := discipline.insertAtHeadOfQueue e.customer node.queue }

variable (discipline node) in
private theorem preempt_holds {e : EndServiceEvent Customer Time} (holds : Holds node.sim.diary events)
    (last : node.lastEndServiceEvent = some e) (pending : ends events = [e]) :
    ∃ diary later, node.preempt discipline = some (preempted discipline node e diary) ∧ Holds diary later ∧
      ends later = [] := by
  have member : Event.endService e ∈ events := mem_ends.mp (by rw [pending]; exact List.mem_singleton_self e)
  obtain ⟨diary,descheduled,holds'⟩ := holds_deschedule holds member
  refine ⟨diary,_,?_,holds',?_⟩
  · exact Option.bind_eq_some_iff.mpr ⟨e,last,congrArg (Option.map _) descheduled⟩
  · have split := ends_perm (List.perm_cons_erase member)
    rw [pending,ends_endService] at split
    exact List.nil_perm.mp ((List.perm_cons e).mp split)

/-- An arrival that takes the server from a customer. -/
private theorem kept_preempt {sample : Time} {e : EndServiceEvent Customer Time} (kept : Kept state events)
    (busy : state.node.resources = 0) (stays : ∀ e, state.node.sim.position ≠ .invoking (.endService e))
    (last : state.node.lastEndServiceEvent = some e) (pending : ends events = [e])
    (outside : e.customer ∉ state.node.queue)
    (account : state.history.received e.customer + (e.invokeTime - state.history.servingSince) =
      state.history.demanded e.customer)
    (absent : c ∉ state.node.customers) (entered : state.node.enter discipline c sample = some node) :
    ∃ events, Kept ⟨node,state.history.after state.node node (.enter c sample)⟩ events := by
  obtain ⟨unqueued,unserved⟩ := not_mem_customers kept absent
  have differs : e.customer ≠ c := unserved e (by rw [pending]; exact List.mem_singleton_self e)
  obtain ⟨diary,fewer,preempts,holds,nothing⟩ :=
    preempt_holds discipline (arrived state.node c sample) kept.holds last pending
  obtain ⟨diary',later,same,holds',pending'⟩ :=
    invokeService_holds (preempted discipline (arrived state.node c sample) e diary) holds c
  have taken : ¬0 < (arrived state.node c sample).resources := by
    show ¬0 < state.node.resources
    omega
  have accepted : state.node.enter discipline c sample =
      (preempted discipline (arrived state.node c sample) e diary).invokeService c :=
    (if_neg taken).trans (congrArg (fun found => found.bind fun node : PreemptiveResumeNode Customer Time =>
      node.invokeService c) preempts)
  rw [← accepted,entered,Option.some.injEq] at same
  subst same
  rw [nothing] at pending'
  have arranged := discipline.perm e.customer state.node.queue
  have history : state.history.after state.node (served (preempted discipline (arrived state.node c sample) e diary) c
      diary' state.node.sim.position) (.enter c sample) =
      ⟨Function.update state.history.demanded c sample,
        Function.update (Function.update state.history.received e.customer
          (state.history.received e.customer + (state.node.sim.vtime - state.history.servingSince))) c 0,
        state.node.sim.vtime⟩ := by
    unfold History.after
    simp only [busy,Nat.lt_irrefl,if_false,last]
    rfl
  have kept' : Kept ⟨served (preempted discipline (arrived state.node c sample) e diary) c diary'
      state.node.sim.position,state.history.after state.node (served (preempted discipline
        (arrived state.node c sample) e diary) c diary' state.node.sim.position) (.enter c sample)⟩ later := by
    rw [history]
    apply kept_served state.node.sim.position holds' pending' busy stays
    · exact arranged.nodup_iff.mpr (List.nodup_cons.mpr ⟨outside,kept.distinct⟩)
    · intro other member
      rcases List.mem_cons.mp (arranged.subset member) with rfl | waits
      · simp only [preempted,Function.update_self,Function.update_of_ne differs]
        rw [← account]
        show _ + _ + (e.invokeTime - state.node.sim.vtime) = _
        abel
      · have first : other ≠ c := by
          rintro rfl
          exact unqueued waits
        have second : other ≠ e.customer := by
          rintro rfl
          exact outside waits
        simp only [preempted,arrived,Function.update_of_ne first,Function.update_of_ne second]
        exact kept.waiting other waits
    · intro member
      rcases List.mem_cons.mp (arranged.subset member) with same | member
      · exact differs same.symm
      · exact unqueued member
    · rfl
    · simp only [preempted,arrived,Function.update_self,Function.update_of_ne differs.symm,zero_add]
  exact ⟨later,kept'⟩

variable (node) in
/-- The place of the simulator after an event's `invoke`. -/
private theorem returns_eq {e : Event Customer Time} (place : node.sim.position = .invoking e) :
    node.simulate .returns = some { node with sim := { node.sim with position := .looping } } := by
  unfold PreemptiveResumeNode.simulate EventSimulation.step
  rw [place]
  rfl

/-- The node after the next customer has left the queue. -/
private def dequeued (node : PreemptiveResumeNode Customer Time) (rest : List Customer) :
    PreemptiveResumeNode Customer Time :=
  { node with queue := rest }

private theorem releaseResource_cons {rest : List Customer} (waits : node.queue = c :: rest) :
    node.releaseResource = (dequeued node rest).invokeService c := by
  unfold PreemptiveResumeNode.releaseResource
  rw [waits]
  rfl

/-- The node after its server has become free. -/
private def freed (node : PreemptiveResumeNode Customer Time) : PreemptiveResumeNode Customer Time :=
  { node with resources := node.resources + 1 }

private theorem releaseResource_nil (waits : node.queue = []) (busy : node.resources = 0) :
    node.releaseResource = some (freed node) := by
  simp [PreemptiveResumeNode.releaseResource,freed,waits,busy]

/-- The end of the node's own event: the server goes to the next customer, or is free. -/
private theorem kept_release {e : EndServiceEvent Customer Time} (kept : Kept state events)
    (leaves : state.node.sim.position = .invoking (.endService e))
    (released : state.node.step discipline .release = some node) :
    ∃ events, Kept ⟨node,state.history.after state.node node .release⟩ events := by
  have both : (state.node.releaseResource.bind fun released => released.simulate .returns) = some node := by
    rw [PreemptiveResumeNode.step,leaves] at released
    exact released
  cases kept.phase with
  | idle _ stays _ _ | serving _ _ stays _ _ _ _ => exact absurd leaves (stays e)
  | leaving _ busy _ nothing =>
    cases waits : state.node.queue with
    | nil =>
      rw [releaseResource_nil waits busy,Option.bind_some,returns_eq (freed state.node) leaves,Option.some.injEq] at both
      subst both
      refine ⟨events,kept.holds,kept.distinct,kept.waiting,.idle ?_ nofun nothing waits⟩
      show state.node.resources + 1 = 1
      omega
    | cons c rest =>
      obtain ⟨diary,later,same,holds,pending⟩ := invokeService_holds (dequeued state.node rest) kept.holds c
      rw [releaseResource_cons waits,same,Option.bind_some] at both
      have place := returns_eq (served (dequeued state.node rest) c diary state.node.sim.position) leaves
      have result : served (dequeued state.node rest) c diary .looping = node := Option.some.inj (place.symm.trans both)
      subst result
      rw [nothing] at pending
      have distinct := kept.distinct
      have waiting := kept.waiting
      rw [waits] at distinct waiting
      obtain ⟨outside,distinct⟩ := List.nodup_cons.mp distinct
      exact ⟨later,kept_served .looping holds pending busy nofun distinct
        (fun other member => waiting other (List.mem_cons_of_mem _ member)) outside rfl (waiting c List.mem_cons_self)⟩

/-- One test of the loop. The customer of an end-of-service event that fires has been served as it demanded. -/
private theorem kept_iterate {stops : Bool} (kept : Kept state events)
    (moved : state.node.simulate (.iterate stops false) = some node) :
    (∃ events, Kept ⟨node,state.history.after state.node node (.iterate stops)⟩ events) ∧
      ∀ e, node.sim.position = .invoking (.endService e) →
        (state.history.after state.node node (.iterate stops)).received e.customer =
          (state.history.after state.node node (.iterate stops)).demanded e.customer := by
  obtain ⟨sim,stepped,rfl⟩ := Option.map_eq_some_iff.mp moved
  simp only [EventSimulation.step,Option.ite_none_right_eq_some,Sim.iterate] at stepped
  obtain ⟨looping,stepped⟩ := stepped
  have stays : ∀ e, state.node.sim.position ≠ .invoking (.endService e) := by
    rw [looping]
    rintro e ⟨⟩
  by_cases ends_ : (state.node.sim.diary.isEmpty || stops) = true
  · rw [if_pos ends_,Option.some.injEq] at stepped
    subst stepped
    refine ⟨⟨events,kept_simulator kept kept.holds (List.Perm.refl _) ?_⟩,by rintro e ⟨⟩⟩
    intro e
    exact ⟨by rintro ⟨⟩,fun leaves => absurd leaves (stays e)⟩
  · rw [if_neg ends_,Option.map_eq_some_iff] at stepped
    obtain ⟨⟨first,diary⟩,removed,rfl⟩ := stepped
    cases events with
    | nil =>
      rw [(holds_isEmpty kept.holds).mpr rfl] at ends_
      exact absurd rfl ends_
    | cons head rest =>
      obtain ⟨found,same,holds⟩ := holds_removeFromFront kept.holds
      rw [removed,Option.some.injEq,Prod.mk.injEq] at same
      obtain ⟨rfl,rfl⟩ := same
      cases first with
      | other id time =>
        refine ⟨⟨rest,kept_simulator kept holds (List.Perm.refl _) ?_⟩,by rintro e ⟨⟩⟩
        intro e
        exact ⟨by rintro ⟨⟩,fun leaves => absurd leaves (stays e)⟩
      | endService e =>
        cases kept.phase with
        | idle _ _ nothing _ => cases nothing
        | leaving e _ leaves _ => exact absurd leaves (stays e)
        | serving current busy _ last pending outside account =>
          rw [ends_endService,List.cons.injEq] at pending
          obtain ⟨rfl,nothing⟩ := pending
          refine ⟨⟨rest,holds,kept.distinct,?_,.leaving e busy rfl nothing⟩,?_⟩
          · intro c waits
            have differs : c ≠ e.customer := by
              rintro rfl
              exact outside waits
            show Function.update state.history.received e.customer _ c + _ = _
            rw [Function.update_of_ne differs]
            exact kept.waiting c waits
          · intro left same
            cases same
            show Function.update state.history.received e.customer _ e.customer = _
            rw [Function.update_self]
            exact account

/-- A step of the rest of the network. -/
private theorem kept_environment {s : EventSimulation.Step (Event Customer Time)} (kept : Kept state events)
    (moved : state.node.simulate s = some node)
    (environment : (∃ id time, s = .schedule (.other id time)) ∨ (∃ id time, s = .deschedule (.other id time)) ∨ s = .go ∨
      s = .returns ∧ ∃ id time, state.node.sim.position = .invoking (.other id time)) :
    ∃ events, Kept ⟨node,state.history⟩ events := by
  obtain ⟨sim,stepped,rfl⟩ := Option.map_eq_some_iff.mp moved
  rcases environment with ⟨id,time,rfl⟩ | ⟨id,time,rfl⟩ | rfl | ⟨rfl,id,time,place⟩
  · obtain ⟨diary,later,scheduled,holds,arranged⟩ := holds_schedule kept.holds Event.invokeTime (.other id time)
    simp only [EventSimulation.step,Option.ite_none_left_eq_some,scheduled,Option.some.injEq] at stepped
    obtain ⟨_,rfl⟩ := stepped
    have same : (ends later).Perm (ends (.other id time :: events)) := ends_perm arranged
    exact ⟨later,kept_simulator kept holds same fun _ => Iff.rfl⟩
  · simp only [EventSimulation.step,Option.ite_none_left_eq_some] at stepped
    by_cases member : Event.other id time ∈ events
    · obtain ⟨diary,descheduled,holds⟩ := holds_deschedule kept.holds member
      rw [descheduled,Option.some.injEq] at stepped
      obtain ⟨_,rfl⟩ := stepped
      have split : (ends events).Perm (ends (.other id time :: events.erase (.other id time))) :=
        ends_perm (List.perm_cons_erase member)
      exact ⟨_,kept_simulator kept holds split.symm fun _ => Iff.rfl⟩
    · rw [Sim.deschedule,remove_absent kept.holds member] at stepped
      cases stepped.2
  · simp only [EventSimulation.step,Option.ite_none_right_eq_some,Option.some.injEq] at stepped
    obtain ⟨outside,rfl⟩ := stepped
    refine ⟨events,kept_simulator kept kept.holds (List.Perm.refl _) ?_⟩
    intro e
    rw [outside]
    exact ⟨by rintro ⟨⟩,by rintro ⟨⟩⟩
  · simp only [EventSimulation.step,place,Option.some.injEq] at stepped
    subst stepped
    refine ⟨events,kept_simulator kept kept.holds (List.Perm.refl _) ?_⟩
    intro e
    rw [place]
    exact ⟨by rintro ⟨⟩,by rintro ⟨⟩⟩

private theorem step_kept (kept : Kept state events) (direct : NoFeedback state s)
    (stepped : record discipline state s = some next) : ∃ events, Kept next events := by
  obtain ⟨node,moved,rfl⟩ := Option.map_eq_some_iff.mp stepped
  cases s with
  | enter c sample =>
    simp only [PreemptiveResumeNode.step,Option.ite_none_left_eq_some,not_or] at moved
    obtain ⟨⟨_,absent⟩,entered⟩ := moved
    cases kept.phase with
    | idle free stays nothing empty => exact kept_claim kept free stays nothing empty entered
    | serving e busy stays last pending outside account =>
      exact kept_preempt kept busy stays last pending outside account absent entered
    | leaving e _ leaves _ => exact absurd leaves (direct e)
  | schedule id time => exact kept_environment kept moved (Or.inl ⟨id,time,rfl⟩)
  | deschedule id time => exact kept_environment kept moved (Or.inr (Or.inl ⟨id,time,rfl⟩))
  | go => exact kept_environment kept moved (Or.inr (Or.inr (Or.inl rfl)))
  | iterate stops => exact (kept_iterate kept moved).1
  | returns =>
    cases place : state.node.sim.position with
    | outside | looping => simp [PreemptiveResumeNode.step,place] at moved
    | invoking e =>
      cases e with
      | endService e => simp [PreemptiveResumeNode.step,place] at moved
      | other id time =>
        simp only [PreemptiveResumeNode.step,place] at moved
        exact kept_environment kept moved (Or.inr (Or.inr (Or.inr ⟨rfl,id,time,place⟩)))
  | release =>
    cases place : state.node.sim.position with
    | outside | looping => simp [PreemptiveResumeNode.step,place] at moved
    | invoking e =>
      cases e with
      | endService e => exact kept_release kept place moved
      | other id time => simp [PreemptiveResumeNode.step,place] at moved

/-- Between the steps of a run without feedback, the law asks for no feedback. -/
private theorem conserves_iff (kept : Kept state events) (s : Step Customer Time) :
    NoFeedback state s ↔ Conserves discipline state s := by
  cases s with
  | schedule _ _ | deschedule _ _ | go | returns | release => exact Iff.rfl
  | iterate stops =>
    refine ⟨fun _ next stepped e place => ?_,fun _ => trivial⟩
    obtain ⟨node,moved,rfl⟩ := Option.map_eq_some_iff.mp stepped
    exact (kept_iterate kept moved).2 e place
  | enter c sample =>
    constructor
    · intro direct _ taken
      rw [contents_eq kept.holds]
      cases kept.phase with
      | idle free _ _ _ => omega
      | leaving e _ leaves _ => exact absurd leaves (direct e)
      | serving e _ _ last pending _ _ =>
        refine ⟨e,last,mem_ends.mp ?_⟩
        rw [pending]
        exact List.mem_singleton_self e
    · intro found e leaves
      cases kept.phase with
      | idle _ stays _ _ | serving _ _ stays _ _ _ _ => exact stays e leaves
      | leaving _ busy _ nothing =>
        obtain ⟨current,_,pending⟩ := found (by rw [leaves]; exact nofun) busy
        rw [contents_eq kept.holds,← mem_ends,nothing] at pending
        cases pending

end Steps

/-! ## The theorem -/

/-- A node as it is built, in a simulator that has not started. -/
def start (now : Time) (serviceDemand : Customer → Time) : Recorded Customer Time :=
  ⟨{ sim := { vtime := now },serviceDemand },⟨fun _ => 0,fun _ => 0,now⟩⟩

private theorem kept_start (now : Time) (serviceDemand : Customer → Time) : Kept (start now serviceDemand) [] where
  holds := holds_empty
  distinct := List.nodup_nil
  waiting _ waits := absurd waits List.not_mem_nil
  phase := .idle rfl nofun rfl rfl

/-- Preemptions find their events pending, and customers leave served, exactly in the runs in which nobody enters the
    node while it forwards a customer. -/
theorem service_conserved_iff (discipline : Queue Customer) (now : Time) (serviceDemand : Customer → Time)
    (steps : List (Step Customer Time)) :
    Meets (record discipline) (Conserves discipline) (start now serviceDemand) steps ↔
      Meets (record discipline) NoFeedback (start now serviceDemand) steps := by
  symm
  exact @meets_congr_of_invariant _ _ (record discipline) NoFeedback (fun state => ∃ events, Kept state events)
    (Conserves discipline) (fun _ _ _ ⟨_,kept⟩ direct stepped => step_kept kept direct stepped)
    (fun _ s ⟨_,kept⟩ => conserves_iff kept s) (start now serviceDemand) ⟨[],kept_start now serviceDemand⟩ steps

/-- A customer is served for five units of time and forwarded. -/
private def departs : List (Step Nat Int) := [.enter 0 5,.go,.iterate false]

/-- The customer enters the node again: its event is not pending, and the search for it meets a null pointer. -/
theorem feedback_misses : ∃ state : Recorded Nat Int,
    run (record (Queue.single Nat)) (start 0 fun _ => 0) departs = some state ∧ state.node.sim.position ≠ .looping ∧
      0 ∉ state.node.customers ∧ state.node.resources = 0 ∧
      (∀ e, state.node.lastEndServiceEvent = some e → Event.endService e ∉ state.node.sim.diary.contents) ∧
      (state.node.enter (Queue.single Nat) 0 3).isNone ∧
      ¬Conserves (Queue.single Nat) state (.enter 0 3) := by
  obtain ⟨state,executed,checked⟩ := @exists_of_checked _ _ (record (Queue.single Nat))
    (fun state : Recorded Nat Int => decide (state.node.sim.position ≠ .looping ∧ 0 ∉ state.node.customers ∧
      state.node.resources = 0 ∧ (∀ e ∈ state.node.lastEndServiceEvent,
        Event.endService e ∉ state.node.sim.diary.contents) ∧ (state.node.enter (Queue.single Nat) 0 3).isNone))
    (start 0 fun _ => 0) departs (by decide +kernel)
  obtain ⟨place,absent,busy,missing,crashes⟩ := of_decide_eq_true checked
  refine ⟨state,executed,place,absent,busy,missing,crashes,?_⟩
  intro conserves
  obtain ⟨e,last,pending⟩ := conserves place busy
  exact missing e last pending

end Vexjine.PreemptiveResume
