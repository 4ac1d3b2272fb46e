import Vexjine.EventSimulation
import Vexjine.FluidSharing
import Vexjine.Heaps
import Mathlib.Data.Rat.Cast.Order

/-!
# The processor-sharing node

`ProcessorSharingNode` keeps a virtual time that grows at the rate at which each customer is served, and an ordered
queue of its customers by the virtual times at which they finish. It schedules the end of service of the first one,
anew at every arrival and departure. Times are rational. An end-of-service event takes its customer from the queue
and forwards it before it schedules the next one; what happens in between is the business of other nodes.
-/

namespace Vexjine.ProcessorSharing
open Vexjine.Diary
open Vexjine.EventSimulation (Sim Position Timely timely_schedule timely_deschedule timely_removeFromFront)
open Vexjine.FluidSharing
open Vexjine.Insertions
open Vexjine.Runs
set_option linter.unusedSectionVars false

/-- The node's events and those of the rest of the network. -/
inductive Event
  | endOfService (id : Nat) (invokeTime : ℚ)
  | other (id : Nat) (invokeTime : ℚ)
  deriving DecidableEq

def Event.invokeTime : Event → ℚ
  | .endOfService _ time | .other _ time => time

/-- A customer in the queue, with its virtual finishing time. Every visit of a customer has an entry of its own. -/
structure OrderedQueueEntry (Customer : Type) where
  id : Nat
  entry : Customer
  time : ℚ
  deriving DecidableEq

variable {Customer : Type}

namespace OrderedQueueEntry

def smallerThan (x y : OrderedQueueEntry Customer) : Bool := decide (x.time ≤ y.time)

/-- `OrderedQueue::insertIntoQueue`. -/
def insertInOrder (e : OrderedQueueEntry Customer) (queue : List (OrderedQueueEntry Customer)) :
    List (OrderedQueueEntry Customer) :=
  queue.takeWhile (·.smallerThan e) ++ e :: queue.dropWhile (·.smallerThan e)

end OrderedQueueEntry

/-- The node with the simulator that it runs in. -/
structure ProcessorSharingNode (Customer : Type) where
  sim : Sim Event ℚ
  nextId : Nat := 0
  resources : Nat := 1
  queue : List (OrderedQueueEntry Customer) := []
  /-- The entries that have been made. -/
  entries : Nat := 0
  vtime : ℚ := 0
  timeOfLastSchedule : ℚ := 0
  nextEndServiceEvent : Option Event := none
  /-- The first half of the node's own event is over. -/
  forwarding : Bool := false

inductive Step (Customer : Type)
  /-- A customer enters with this sample of the service time. -/
  | enter (c : Customer) (serviceTime : ℚ)
  | schedule (id : Nat) (invokeTime : ℚ)
  | deschedule (id : Nat) (invokeTime : ℚ)
  | go
  /-- The loop of the simulator, which is not stopped between the move of the clock and the event. -/
  | iterate (stops : Bool)
  /-- The end of another event's `invoke`. -/
  | returns
  /-- The node's own event, up to the forwarding of the customer. -/
  | leave
  | finish
  deriving DecidableEq

namespace ProcessorSharingNode
variable (node : ProcessorSharingNode Customer)

/-- What the virtual time has grown by since it was last brought up to date. -/
def progress : ℚ := (node.sim.vtime - node.timeOfLastSchedule) / node.queue.length

/-- The head of an empty queue fails its check. -/
def serviceNextCustomer : Option (ProcessorSharingNode Customer) :=
  node.queue.head?.bind fun e =>
    let completionTime := (e.time - node.vtime) * node.queue.length
    let event := Event.endOfService node.nextId (node.sim.vtime + completionTime)
    (node.sim.schedule Event.invokeTime event).map fun sim =>
      { node with
        sim,nextId := node.nextId + 1,timeOfLastSchedule := node.sim.vtime,nextEndServiceEvent := some event }

/-- The server is claimed, or the pending end of service is given up. -/
def claim : Option (ProcessorSharingNode Customer) :=
  if 0 < node.resources then some { node with resources := node.resources - 1 }
  else node.nextEndServiceEvent.bind fun event => (node.sim.deschedule event).map fun sim =>
    { node with sim,vtime := node.vtime + node.progress }

def enqueue (c : Customer) (serviceTime : ℚ) : ProcessorSharingNode Customer :=
  { node with
    queue := OrderedQueueEntry.insertInOrder ⟨node.entries,c,node.vtime + serviceTime⟩ node.queue
    entries := node.entries + 1 }

/-- The queue has no bound. -/
def accept (c : Customer) (serviceTime : ℚ) : Option (ProcessorSharingNode Customer) :=
  node.claim.bind fun claimed => (claimed.enqueue c serviceTime).serviceNextCustomer

/-- The first half of `invoke`. -/
def leave : Option (ProcessorSharingNode Customer) :=
  match node.queue with
  | [] => none
  | _ :: rest => some { node with vtime := node.vtime + node.progress,queue := rest,forwarding := true }

/-- The second half of `invoke`. A release of what is not held fails its check. -/
def finish : Option (ProcessorSharingNode Customer) :=
  if node.queue = [] then
    if node.resources < 1 then some { node with resources := node.resources + 1,forwarding := false } else none
  else { node with forwarding := false }.serviceNextCustomer

/-- A step of the simulator. -/
def simulate (s : EventSimulation.Step Event) : Option (ProcessorSharingNode Customer) :=
  (EventSimulation.step Event.invokeTime node.sim s).map fun sim => { node with sim }

/-- The simulator is in the node's own event. -/
def inEvent : Bool :=
  match node.sim.position with
  | .invoking (.endOfService ..) => true
  | .invoking (.other ..) | .outside | .looping => false

def step : Step Customer → Option (ProcessorSharingNode Customer)
  | .enter c serviceTime => if node.sim.position = .looping then none else node.accept c serviceTime
  | .schedule id time => node.simulate (.schedule (.other id time))
  | .deschedule id time => node.simulate (.deschedule (.other id time))
  | .go => node.simulate .go
  | .iterate stops => node.simulate (.iterate stops false)
  | .returns => if node.inEvent then none else node.simulate .returns
  | .leave => if node.inEvent && !node.forwarding then node.leave else none
  | .finish => if node.inEvent && node.forwarding then node.finish.bind fun left => left.simulate .returns else none

end ProcessorSharingNode

/-! ## Arrivals and departures -/

/-- When each visit began and ended, and its demand. -/
structure History where
  arrival : Nat → ℚ := fun _ => 0
  demand : Nat → ℚ := fun _ => 0
  departure : Nat → Option ℚ := fun _ => none

structure Recorded (Customer : Type) where
  node : ProcessorSharingNode Customer
  history : History := {}

def History.after (history : History) (node : ProcessorSharingNode Customer) : Step Customer → History
  | .enter _ serviceTime => { history with
      arrival := Function.update history.arrival node.entries node.sim.vtime
      demand := Function.update history.demand node.entries serviceTime }
  | .leave =>
    match node.queue with
    | [] => history
    | e :: _ => { history with departure := Function.update history.departure e.id (some node.sim.vtime) }
  | .schedule .. | .deschedule .. | .go | .iterate _ | .returns | .finish => history

def record (state : Recorded Customer) (s : Step Customer) : Option (Recorded Customer) :=
  (state.node.step s).map fun node => ⟨node,state.history.after state.node s⟩

/-- Demands are not negative, nobody enters in the node's own event, and nothing is scheduled for the past. -/
def Legal (state : Recorded Customer) : Step Customer → Prop
  | .enter _ serviceTime => 0 ≤ serviceTime ∧ state.node.inEvent = false
  | .schedule _ time => state.node.sim.vtime ≤ time
  | .deschedule .. | .go | .iterate _ | .returns | .leave | .finish => True

instance (state : Recorded Customer) : (s : Step Customer) → Decidable (Legal state s)
  | .enter .. => inferInstanceAs (Decidable (_ ∧ _))
  | .schedule .. => inferInstanceAs (Decidable (_ ≤ _))
  | .deschedule .. | .go | .iterate _ | .returns | .leave | .finish => .isTrue trivial

/-- A step of the node itself and of what is already in the diary. -/
def Step.quiet : Step Customer → Bool
  | .enter .. | .schedule .. | .deschedule .. => false
  | .go | .iterate _ | .returns | .leave | .finish => true

/-! ## Ideal processor sharing -/

namespace History
variable (history : History)

noncomputable def arrivals (j : Nat) : ℝ := history.arrival j

noncomputable def demands (j : Nat) : ℝ := history.demand j

/-- The departures of those who have left. -/
noncomputable def departures (j : Nat) : ℝ := ((history.departure j).getD 0 : ℚ)

/-- The departures so far. -/
noncomputable def departuresSoFar (j : Nat) : WithTop ℝ := (history.departure j).elim ⊤ fun d => ((d : ℝ) : WithTop ℝ)

/-- The number of the visits at a time, so far. -/
noncomputable def population (visits : Nat) (t : ℝ) : ℕ :=
  present (Finset.range visits) history.arrivals history.departuresSoFar t

/-- The service that each customer has had between two times, so far. -/
noncomputable def service (visits : Nat) (a b : ℝ) : ℝ :=
  ∫ t in a..b, rate (Finset.range visits) history.arrivals history.departuresSoFar t

end History

/-- Everybody has left, at the one time that ideal processor sharing allows. -/
structure Ideal (visits : Nat) (history : History) : Prop where
  left : ∀ j < visits, (history.departure j).isSome
  shares : Shares (Finset.range visits) history.arrivals history.demands history.departures
  only : ∀ other, Shares (Finset.range visits) history.arrivals history.demands other →
    ∀ j < visits, other j = history.departures j

/-! ## The books -/

/-- The virtual time as the customers in the queue have been served by now. -/
structure Books (origin now virtual : ℚ) (queue : List (OrderedQueueEntry Customer)) (visits : Nat) (history : History) :
    Prop where
  distinct : (queue.map OrderedQueueEntry.id).Nodup
  waiting : ∀ e ∈ queue, e.id < visits ∧ history.departure e.id = none ∧
    (e.time : ℝ) = history.service visits origin (history.arrival e.id) + history.demand e.id
  queued : ∀ j < visits, history.departure j = none → j ∈ queue.map OrderedQueueEntry.id
  fresh : ∀ j, visits ≤ j → history.departure j = none
  arrived : ∀ j < visits, origin ≤ history.arrival j ∧ history.arrival j ≤ now
  gone : ∀ j < visits, ∀ d, history.departure j = some d → history.arrival j ≤ d ∧ d ≤ now ∧
    history.service visits (history.arrival j) d = history.demand j
  begun : origin ≤ now
  served : (virtual : ℝ) = history.service visits origin now

section Books
variable {origin now virtual : ℚ} {queue : List (OrderedQueueEntry Customer)} {visits : Nat} {history : History}

/-- Nobody enters or leaves after now: those in the queue are present. -/
private theorem population_after (books : Books origin now virtual queue visits history) {t : ℝ} (after : (now : ℝ) < t) :
    history.population visits t = queue.length := by
  have same : (Finset.range visits).filter (fun j => history.arrivals j ≤ t ∧ (t : WithTop ℝ) < history.departuresSoFar j) =
      (queue.map OrderedQueueEntry.id).toFinset := by
    ext j
    rw [Finset.mem_filter,Finset.mem_range,List.mem_toFinset]
    constructor
    · rintro ⟨inside,_,stays⟩
      apply books.queued j inside
      cases departs : history.departure j with
      | none => rfl
      | some d =>
        have past : (d : ℝ) ≤ now := by exact_mod_cast (books.gone j inside d departs).2.1
        simp only [History.departuresSoFar,departs,Option.elim_some,WithTop.coe_lt_coe] at stays
        linarith
    · intro member
      obtain ⟨e,place,rfl⟩ := List.mem_map.mp member
      obtain ⟨inside,stays,_⟩ := books.waiting e place
      have past : (history.arrival e.id : ℝ) ≤ now := by exact_mod_cast (books.arrived e.id inside).2
      refine ⟨inside,past.trans after.le,?_⟩
      simp [History.departuresSoFar,stays]
  unfold History.population present
  rw [same,List.toFinset_card_of_nodup books.distinct,List.length_map]

private theorem service_add (a b c : ℝ) :
    history.service visits a b = history.service visits a c + history.service visits c b := integral_rate_add a b c

/-- The clock moves. -/
private theorem books_clock {later : ℚ} (books : Books origin now virtual queue visits history) (forward : now ≤ later) :
    Books origin later (virtual + (later - now) / queue.length) queue visits history where
  distinct := books.distinct
  waiting := books.waiting
  queued := books.queued
  fresh := books.fresh
  arrived j inside := ⟨(books.arrived j inside).1,(books.arrived j inside).2.trans forward⟩
  gone j inside d departs := by
    obtain ⟨stays,past,served⟩ := books.gone j inside d departs
    exact ⟨stays,past.trans forward,served⟩
  begun := books.begun.trans forward
  served := by
    have since : history.service visits now later = ((later : ℝ) - now) / queue.length := by
      apply integral_rate_const
      · exact_mod_cast forward
      · intro t after _
        exact population_after books after
    rw [service_add _ _ (now : ℝ),since,← books.served]
    push_cast
    ring

/-- Two histories of one past give the same service in it. -/
private theorem service_congr {history' : History} {visits' : Nat}
    (same : ∀ t : ℝ, t < now → history.population visits t = history'.population visits' t) {a b : ℝ} (ordered : a ≤ b)
    (past : b ≤ now) : history.service visits a b = history'.service visits' a b :=
  integral_rate_congr ordered fun t _ before => same t (before.trans_le past)

/-- The history after an arrival now. -/
private def entered (history : History) (visits : Nat) (now serviceTime : ℚ) : History :=
  { history with
    arrival := Function.update history.arrival visits now
    demand := Function.update history.demand visits serviceTime }

private theorem entered_self (history : History) (visits : Nat) (now serviceTime : ℚ) :
    (entered history visits now serviceTime).arrival visits = now ∧
      (entered history visits now serviceTime).demand visits = serviceTime :=
  ⟨Function.update_self _ _ _,Function.update_self _ _ _⟩

private theorem population_entered {serviceTime : ℚ} {t : ℝ} (before : t < now) :
    history.population visits t = (entered history visits now serviceTime).population (visits + 1) t := by
  have newcomer : ¬((entered history visits now serviceTime).arrivals visits ≤ t ∧
      (t : WithTop ℝ) < (entered history visits now serviceTime).departuresSoFar visits) := by
    rintro ⟨arrived,_⟩
    rw [History.arrivals,(entered_self history visits now serviceTime).1] at arrived
    linarith
  unfold History.population present
  rw [Finset.range_add_one,Finset.filter_insert,if_neg newcomer]
  apply congrArg Finset.card
  apply Finset.filter_congr
  intro j inside
  have differs : j ≠ visits := (Finset.mem_range.mp inside).ne
  simp only [History.arrivals,History.departuresSoFar,entered,Function.update_of_ne differs]

/-- A customer enters with its virtual finishing time. -/
private theorem books_enter {serviceTime : ℚ} {c : Customer} {longer : List (OrderedQueueEntry Customer)}
    (books : Books origin now virtual queue visits history)
    (arranged : longer.Perm (⟨visits,c,virtual + serviceTime⟩ :: queue)) :
    Books origin now virtual longer (visits + 1) (entered history visits now serviceTime) := by
  have past : ∀ {a b : ℝ}, a ≤ b → b ≤ now →
      history.service visits a b = (entered history visits now serviceTime).service (visits + 1) a b :=
    fun ordered before => service_congr (fun t => population_entered) ordered before
  have others : ∀ j < visits, (entered history visits now serviceTime).arrival j = history.arrival j ∧
      (entered history visits now serviceTime).demand j = history.demand j := by
    intro j inside
    exact ⟨Function.update_of_ne inside.ne _ _,Function.update_of_ne inside.ne _ _⟩
  have first := entered_self history visits now serviceTime
  have ids := arranged.map OrderedQueueEntry.id
  have begun : (origin : ℝ) ≤ now := by exact_mod_cast books.begun
  have new_id : visits ∉ queue.map OrderedQueueEntry.id := by
    intro member
    obtain ⟨e,place,same⟩ := List.mem_map.mp member
    exact absurd (books.waiting e place).1 (by omega)
  constructor
  case distinct => exact ids.nodup_iff.mpr (List.nodup_cons.mpr ⟨new_id,books.distinct⟩)
  case waiting =>
    intro e member
    rcases List.mem_cons.mp (arranged.subset member) with rfl | place
    · refine ⟨Nat.lt_succ_self _,books.fresh visits le_rfl,?_⟩
      rw [first.1,first.2,← past begun le_rfl,← books.served]
      push_cast
      rfl
    · obtain ⟨inside,stays,finish⟩ := books.waiting e place
      obtain ⟨same,demanded⟩ := others e.id inside
      refine ⟨by omega,stays,?_⟩
      rw [same,demanded,← past (by exact_mod_cast (books.arrived e.id inside).1)
        (by exact_mod_cast (books.arrived e.id inside).2)]
      exact finish
  case queued =>
    intro j inside stays
    apply ids.symm.subset
    rcases Nat.lt_succ_iff_lt_or_eq.mp inside with earlier | rfl
    · exact List.mem_cons_of_mem _ (books.queued j earlier stays)
    · exact List.mem_cons_self
  case fresh => exact fun j outside => books.fresh j (by omega)
  case arrived =>
    intro j inside
    rcases Nat.lt_succ_iff_lt_or_eq.mp inside with earlier | rfl
    · rw [(others j earlier).1]
      exact books.arrived j earlier
    · rw [first.1]
      exact ⟨books.begun,le_rfl⟩
  case gone =>
    intro j inside d departs
    rcases Nat.lt_succ_iff_lt_or_eq.mp inside with earlier | rfl
    · obtain ⟨stays,before,served⟩ := books.gone j earlier d departs
      rw [(others j earlier).1,(others j earlier).2,
        ← past (by exact_mod_cast stays) (by exact_mod_cast before)]
      exact ⟨stays,before,served⟩
    · have none_ := books.fresh j le_rfl
      rw [show (entered history j now serviceTime).departure j = history.departure j from rfl,none_] at departs
      cases departs
  case begun => exact books.begun
  case served =>
    rw [← past begun le_rfl]
    exact books.served

/-- The history after a departure now. -/
private def departed (history : History) (j : Nat) (now : ℚ) : History :=
  { history with departure := Function.update history.departure j (some now) }

private theorem departed_self (history : History) (j : Nat) (now : ℚ) :
    (departed history j now).departure j = some now :=
  Function.update_self _ _ _

private theorem population_departed {j : Nat} (stays : history.departure j = none) {t : ℝ} (before : t < now) :
    history.population visits t = (departed history j now).population visits t := by
  unfold History.population present
  apply congrArg Finset.card
  apply Finset.filter_congr
  intro k _
  by_cases same : k = j
  · subst same
    simp [History.arrivals,History.departuresSoFar,departed,stays,before]
  · simp only [History.arrivals,History.departuresSoFar,departed,Function.update_of_ne same]

/-- The customer whose virtual finishing time has come leaves. -/
private theorem books_leave {e : OrderedQueueEntry Customer} {rest : List (OrderedQueueEntry Customer)}
    (books : Books origin now virtual (e :: rest) visits history) (finished : e.time = virtual) :
    Books origin now virtual rest visits (departed history e.id now) := by
  obtain ⟨inside,stays,finish⟩ := books.waiting e List.mem_cons_self
  have past : ∀ {a b : ℝ}, a ≤ b → b ≤ now →
      history.service visits a b = (departed history e.id now).service visits a b :=
    fun ordered before => service_congr (fun t => population_departed stays) ordered before
  obtain ⟨apart,distinct⟩ := List.nodup_cons.mp books.distinct
  have others : ∀ k, k ≠ e.id → (departed history e.id now).departure k = history.departure k := fun k differs =>
    Function.update_of_ne differs _ _
  have begun : (origin : ℝ) ≤ now := by exact_mod_cast books.begun
  constructor
  case distinct => exact distinct
  case waiting =>
    intro other place
    obtain ⟨known,remains,time⟩ := books.waiting other (List.mem_cons_of_mem _ place)
    have differs : other.id ≠ e.id := by
      intro same
      exact apart (same ▸ List.mem_map_of_mem place)
    refine ⟨known,(others other.id differs).trans remains,?_⟩
    rw [← past (by exact_mod_cast (books.arrived other.id known).1) (by exact_mod_cast (books.arrived other.id known).2)]
    exact time
  case queued =>
    intro k known remains
    have differs : k ≠ e.id := by
      rintro rfl
      rw [departed_self] at remains
      cases remains
    rw [others k differs] at remains
    exact (List.mem_cons.mp (books.queued k known remains)).resolve_left differs
  case fresh =>
    intro k outside
    rw [others k (by omega)]
    exact books.fresh k outside
  case arrived => exact books.arrived
  case gone =>
    intro k known d departs
    by_cases same : k = e.id
    · subst same
      rw [departed_self,Option.some.injEq] at departs
      subst departs
      obtain ⟨begins,arrives⟩ := books.arrived e.id known
      refine ⟨arrives,le_rfl,?_⟩
      have whole := @service_add visits history origin now (history.arrival e.id)
      rw [← books.served,← finished,finish] at whole
      have rest_ : history.service visits (history.arrival e.id) now = history.demand e.id := by linarith
      exact (past (by exact_mod_cast arrives) le_rfl).symm.trans rest_
    · rw [others k same] at departs
      obtain ⟨arrives,before,served⟩ := books.gone k known d departs
      refine ⟨arrives,before,?_⟩
      exact (past (by exact_mod_cast arrives) (by exact_mod_cast before)).symm.trans served
  case begun => exact books.begun
  case served => exact books.served.trans (past begun le_rfl)

/-- The departures of a history in which everybody has left. -/
private theorem ideal_of_books (books : Books origin now virtual ([] : List (OrderedQueueEntry Customer)) visits history) :
    Ideal visits history := by
  have left : ∀ j < visits, ∃ d, history.departure j = some d := by
    intro j inside
    cases departs : history.departure j with
    | none => cases books.queued j inside departs
    | some d => exact ⟨d,rfl⟩
  have shares : Shares (Finset.range visits) history.arrivals history.demands history.departures := by
    constructor
    · intro j inside
      obtain ⟨d,departs⟩ := left j (Finset.mem_range.mp inside)
      have stays := (books.gone j (Finset.mem_range.mp inside) d departs).1
      rw [History.departures,departs,Option.getD_some]
      exact Rat.cast_le.mpr stays
    · intro j inside
      obtain ⟨d,departs⟩ := left j (Finset.mem_range.mp inside)
      obtain ⟨stays,_,served⟩ := books.gone j (Finset.mem_range.mp inside) d departs
      have ends_ : history.departures j = d := by rw [History.departures,departs,Option.getD_some]
      rw [ends_]
      refine Eq.trans (integral_rate_congr ?_ ?_) served
      · exact Rat.cast_le.mpr stays
      · intro t _ _
        unfold present
        apply congrArg Finset.card
        apply Finset.filter_congr
        intro k known
        obtain ⟨d',departs'⟩ := left k (Finset.mem_range.mp known)
        simp [History.departures,History.departuresSoFar,departs']
  refine ⟨?_,shares,?_⟩
  · intro j inside
    obtain ⟨d,departs⟩ := left j inside
    rw [departs]
    rfl
  · exact fun other others j inside => departure_unique others shares j (Finset.mem_range.mpr inside)

end Books

/-! ## The node -/

def Event.isEnd : Event → Bool
  | .endOfService .. => true
  | .other .. => false

/-- What the server does, which of its events are pending then, and the virtual time by now. -/
inductive Phase (node : ProcessorSharingNode Customer) (events : List Event) (virtual : ℚ) : Prop
  | idle (free : node.resources = 1) (away : node.inEvent = false) (whole : node.forwarding = false)
      (nothing : events.filter Event.isEnd = []) (empty : node.queue = []) (current : virtual = node.vtime)
  | serving (e : OrderedQueueEntry Customer) (rest : List (OrderedQueueEntry Customer)) (id : Nat) (time : ℚ)
      (busy : node.resources = 0) (away : node.inEvent = false) (whole : node.forwarding = false)
      (queue : node.queue = e :: rest) (next : node.nextEndServiceEvent = some (.endOfService id time))
      (pending : events.filter Event.isEnd = [.endOfService id time])
      (finishes : time = node.timeOfLastSchedule + (e.time - node.vtime) * node.queue.length)
      (current : virtual = node.vtime + node.progress)
  | firing (e : OrderedQueueEntry Customer) (rest : List (OrderedQueueEntry Customer))
      (busy : node.resources = 0) (inside : node.inEvent = true) (whole : node.forwarding = false)
      (nothing : events.filter Event.isEnd = []) (queue : node.queue = e :: rest)
      (finished : e.time = virtual) (current : virtual = node.vtime + node.progress)
  | forwarding (busy : node.resources = 0) (inside : node.inEvent = true) (half : node.forwarding = true)
      (nothing : events.filter Event.isEnd = []) (current : virtual = node.vtime)

structure Kept (origin : ℚ) (state : Recorded Customer) (events : List Event) (virtual : ℚ) : Prop where
  timely : Timely Event.invokeTime state.node.sim events
  phase : Phase state.node events virtual
  sorted : state.node.queue.Pairwise fun x y => x.time ≤ y.time
  ahead : ∀ e ∈ state.node.queue, virtual ≤ e.time
  books : Books origin state.node.sim.vtime virtual state.node.queue state.node.entries state.history

section Steps
variable {origin virtual : ℚ} {state next : Recorded Customer} {node : ProcessorSharingNode Customer}
  {events later : List Event} {s : Step Customer}

/-- A change of the simulator that leaves the clock and the node's events alone. -/
private theorem kept_simulator {sim : Sim Event ℚ} (kept : Kept origin state events virtual)
    (timely : Timely Event.invokeTime sim later) (same : (later.filter Event.isEnd).Perm (events.filter Event.isEnd))
    (place : { state.node with sim }.inEvent = state.node.inEvent) (clock : sim.vtime = state.node.sim.vtime) :
    Kept origin ⟨{ state.node with sim },state.history⟩ later virtual where
  timely := timely
  sorted := kept.sorted
  ahead := kept.ahead
  books := by
    show Books origin sim.vtime _ _ _ _
    rw [clock]
    exact kept.books
  phase := by
    have progress : { state.node with sim }.progress = state.node.progress := by
      unfold ProcessorSharingNode.progress
      rw [clock]
    cases kept.phase with
    | idle free away whole nothing empty current =>
      rw [nothing,List.perm_nil] at same
      exact .idle free (place.trans away) whole same empty current
    | serving e rest id time busy away whole queue next pending finishes current =>
      rw [pending,List.perm_singleton] at same
      exact .serving e rest id time busy (place.trans away) whole queue next same finishes (progress ▸ current)
    | firing e rest busy inside whole nothing queue finished current =>
      rw [nothing,List.perm_nil] at same
      exact .firing e rest busy (place.trans inside) whole same queue finished (progress ▸ current)
    | forwarding busy inside half nothing current =>
      rw [nothing,List.perm_nil] at same
      exact .forwarding busy (place.trans inside) half same current

/-- The node after `serviceNextCustomer`, at another place of the simulator. -/
private def served (node : ProcessorSharingNode Customer) (e : OrderedQueueEntry Customer)
    (diary : LinkedList Event) (position : Position Event) : ProcessorSharingNode Customer :=
  { node with
    sim := { node.sim with diary,position },nextId := node.nextId + 1,timeOfLastSchedule := node.sim.vtime
    nextEndServiceEvent := some (.endOfService node.nextId
      (node.sim.vtime + (e.time - node.vtime) * node.queue.length)) }

variable (node) in
private theorem serviceNextCustomer_timely {e : OrderedQueueEntry Customer} {rest : List (OrderedQueueEntry Customer)}
    (timely : Timely Event.invokeTime node.sim events) (queue : node.queue = e :: rest) (ahead : node.vtime ≤ e.time) :
    ∃ diary later, node.serviceNextCustomer = some (served node e diary node.sim.position) ∧
      Timely Event.invokeTime { node.sim with diary } later ∧
      later.Perm (.endOfService node.nextId (node.sim.vtime + (e.time - node.vtime) * node.queue.length) :: events) := by
  have due : node.sim.vtime ≤ (Event.endOfService node.nextId
      (node.sim.vtime + (e.time - node.vtime) * node.queue.length)).invokeTime := by
    have remaining : 0 ≤ (e.time - node.vtime) * node.queue.length :=
      mul_nonneg (sub_nonneg.mpr ahead) (Nat.cast_nonneg _)
    show node.sim.vtime ≤ node.sim.vtime + _
    linarith
  obtain ⟨diary,later,scheduled,timely',arranged⟩ := timely_schedule timely due
  refine ⟨diary,later,?_,timely',arranged⟩
  unfold ProcessorSharingNode.serviceNextCustomer
  rw [queue] at scheduled ⊢
  simp only [List.head?_cons,Option.bind_some,scheduled,Option.map_some,served,queue]

/-- The next customer is served from now on. -/
private theorem phase_served {e : OrderedQueueEntry Customer} {rest : List (OrderedQueueEntry Customer)}
    {diary : LinkedList Event} {position : Position Event} (busy : node.resources = 0)
    (away : (served node e diary position).inEvent = false) (whole : node.forwarding = false) (queue : node.queue = e :: rest)
    (arranged : later.Perm
      (.endOfService node.nextId (node.sim.vtime + (e.time - node.vtime) * node.queue.length) :: events))
    (nothing : events.filter Event.isEnd = []) : Phase (served node e diary position) later node.vtime := by
  have pending := arranged.filter Event.isEnd
  rw [List.filter_cons_of_pos rfl,nothing] at pending
  refine .serving e rest _ _ busy away whole queue rfl (List.perm_singleton.mp pending) rfl ?_
  show node.vtime = node.vtime + (node.sim.vtime - node.sim.vtime) / _
  rw [sub_self,zero_div,add_zero]

/-- The node that a customer enters, with its server claimed and the virtual time brought up to date. -/
private theorem claim_timely (kept : Kept origin state events virtual) (away : state.node.inEvent = false) :
    ∃ claimed later, state.node.claim = some claimed ∧ Timely Event.invokeTime claimed.sim later ∧
      later.filter Event.isEnd = [] ∧ claimed.resources = 0 ∧ claimed.vtime = virtual ∧
      claimed.sim.vtime = state.node.sim.vtime ∧ claimed.inEvent = false ∧ claimed.forwarding = false ∧
      claimed.queue = state.node.queue ∧ claimed.entries = state.node.entries := by
  cases kept.phase with
  | idle free _ whole nothing empty current =>
    refine ⟨{ state.node with resources := state.node.resources - 1 },events,if_pos (by omega),kept.timely,nothing,?_,
      current.symm,rfl,away,whole,rfl,rfl⟩
    show state.node.resources - 1 = 0
    omega
  | serving e rest id time busy _ whole queue next pending finishes current =>
    have member : Event.endOfService id time ∈ events := by
      have found : Event.endOfService id time ∈ events.filter Event.isEnd := by
        rw [pending]
        exact List.mem_singleton_self _
      exact (List.mem_filter.mp found).1
    obtain ⟨diary,descheduled,timely⟩ := timely_deschedule kept.timely member
    refine ⟨{ state.node with
      sim := { state.node.sim with diary },vtime := state.node.vtime + state.node.progress },
      _,?_,timely,?_,busy,current.symm,rfl,away,whole,rfl,rfl⟩
    · have busy' : ¬0 < state.node.resources := by omega
      exact (if_neg busy').trans (Option.bind_eq_some_iff.mpr ⟨_,next,congrArg (Option.map _) descheduled⟩)
    · have split := (List.perm_cons_erase member).filter Event.isEnd
      rw [pending,List.filter_cons_of_pos rfl] at split
      exact List.nil_perm.mp ((List.perm_cons _).mp split)
  | firing _ _ _ inside | forwarding _ inside =>
    rw [inside] at away
    cases away

/-- An arrival is always accepted. -/
private theorem kept_enter {serviceTime : ℚ} (c : Customer) (kept : Kept origin state events virtual)
    (demand : 0 ≤ serviceTime) (away : state.node.inEvent = false) :
    ∃ node later, state.node.accept c serviceTime = some node ∧
      Kept origin ⟨node,state.history.after state.node (.enter c serviceTime)⟩ later virtual := by
  obtain ⟨claimed,fewer,claims,timely,nothing,busy,current,clock,away',whole,queue,entries⟩ := claim_timely kept away
  have arranged := perm_insertion (OrderedQueueEntry.smallerThan · ⟨claimed.entries,c,claimed.vtime + serviceTime⟩)
    ⟨claimed.entries,c,claimed.vtime + serviceTime⟩ claimed.queue
  have ahead : ∀ e ∈ (claimed.enqueue c serviceTime).queue, virtual ≤ e.time := by
    intro e member
    rcases List.mem_cons.mp (arranged.subset member) with rfl | place
    · show virtual ≤ claimed.vtime + serviceTime
      linarith
    · rw [queue] at place
      exact kept.ahead e place
  have sorted : (claimed.enqueue c serviceTime).queue.Pairwise fun x y => x.time ≤ y.time := by
    apply sorted_insertion
    rw [queue]
    exact kept.sorted
  have books : Books origin state.node.sim.vtime virtual (claimed.enqueue c serviceTime).queue (state.node.entries + 1)
      (entered state.history state.node.entries state.node.sim.vtime serviceTime) := by
    apply books_enter kept.books
    rw [← current,← queue,← entries]
    exact arranged
  cases filled : (claimed.enqueue c serviceTime).queue with
  | nil =>
    have place : ⟨claimed.entries,c,claimed.vtime + serviceTime⟩ ∈ (claimed.enqueue c serviceTime).queue :=
      arranged.symm.subset List.mem_cons_self
    rw [filled] at place
    cases place
  | cons e rest =>
    have first : (claimed.enqueue c serviceTime).vtime ≤ e.time := by
      show claimed.vtime ≤ e.time
      rw [current]
      exact ahead e (by rw [filled]; exact List.mem_cons_self)
    obtain ⟨diary,later,scheduled,timely',added⟩ :=
      serviceNextCustomer_timely (claimed.enqueue c serviceTime) timely filled first
    have both : state.node.accept c serviceTime = (claimed.enqueue c serviceTime).serviceNextCustomer := by
      rw [ProcessorSharingNode.accept,claims,Option.bind_some]
    refine ⟨_,later,both.trans scheduled,timely',?_,sorted,ahead,?_⟩
    · rw [← current]
      exact phase_served busy away' whole filled added nothing
    · show Books origin claimed.sim.vtime virtual (claimed.enqueue c serviceTime).queue (claimed.entries + 1)
        (entered state.history state.node.entries state.node.sim.vtime serviceTime)
      rw [clock,entries]
      exact books

/-- The clock moves to a time before the pending end of service. -/
private theorem virtual_ahead {e : OrderedQueueEntry Customer} {rest : List (OrderedQueueEntry Customer)} {time later : ℚ}
    (queue : node.queue = e :: rest)
    (finishes : time = node.timeOfLastSchedule + (e.time - node.vtime) * node.queue.length) (due : later ≤ time) :
    node.vtime + (later - node.timeOfLastSchedule) / node.queue.length ≤ e.time ∧
      (later = time → node.vtime + (later - node.timeOfLastSchedule) / node.queue.length = e.time) := by
  have some_ : (0 : ℚ) < node.queue.length := by
    rw [queue]
    exact_mod_cast Nat.succ_pos _
  have share : later = time →
      (later - node.timeOfLastSchedule) / node.queue.length = e.time - node.vtime := by
    intro now
    rw [now,finishes,div_eq_iff some_.ne']
    ring
  constructor
  · have bound : (later - node.timeOfLastSchedule) / node.queue.length ≤ e.time - node.vtime := by
      rw [div_le_iff₀ some_]
      linarith
    linarith
  · intro now
    rw [share now]
    ring

private theorem progress_later {later : ℚ} {diary : LinkedList Event} {position : Position Event} :
    { node with sim := ⟨diary,later,position⟩ }.progress =
      node.progress + (later - node.sim.vtime) / node.queue.length := by
  unfold ProcessorSharingNode.progress
  rw [← add_div]
  congr 1
  show later - node.timeOfLastSchedule = _
  ring

/-- One test of the simulator's loop. -/
private theorem kept_iterate {stops : Bool} (kept : Kept origin state events virtual)
    (moved : state.node.simulate (.iterate stops false) = some node) :
    ∃ later virtual, Kept origin ⟨node,state.history⟩ later virtual := by
  obtain ⟨sim,stepped,rfl⟩ := Option.map_eq_some_iff.mp moved
  simp only [EventSimulation.step,Option.ite_none_right_eq_some,Sim.iterate] at stepped
  obtain ⟨looping,stepped⟩ := stepped
  have away : state.node.inEvent = false := by
    unfold ProcessorSharingNode.inEvent
    rw [looping]
  by_cases stopped : (state.node.sim.diary.isEmpty || stops) = true
  · rw [if_pos stopped,Option.some.injEq] at stepped
    subst stepped
    refine ⟨events,virtual,kept_simulator kept ?_ (List.Perm.refl _) away.symm rfl⟩
    exact ⟨kept.timely.holds,kept.timely.sorted,kept.timely.due⟩
  · rw [if_neg stopped,Option.map_eq_some_iff] at stepped
    obtain ⟨⟨first,diary⟩,removed,rfl⟩ := stepped
    cases events with
    | nil =>
      rw [(holds_isEmpty kept.timely.holds).mpr rfl] at stopped
      exact absurd rfl stopped
    | cons head rest =>
      obtain ⟨forward,diary',removed',timely⟩ := timely_removeFromFront kept.timely (.invoking head)
      rw [removed,Option.some.injEq,Prod.mk.injEq] at removed'
      obtain ⟨rfl,rfl⟩ := removed'
      refine ⟨rest,virtual + (first.invokeTime - state.node.sim.vtime) / state.node.queue.length,timely,?_,kept.sorted,?_,
        books_clock kept.books forward⟩
      · cases kept.phase with
        | idle free _ whole nothing empty current =>
          have unchanged : virtual + (first.invokeTime - state.node.sim.vtime) / state.node.queue.length =
              state.node.vtime := by
            rw [empty,current,List.length_nil,Nat.cast_zero,div_zero,add_zero]
          cases first with
          | other id time => exact .idle free rfl whole nothing empty unchanged
          | endOfService id time => cases nothing
        | serving e others id time busy _ whole queue next pending finishes current =>
          have updated : virtual + (first.invokeTime - state.node.sim.vtime) / state.node.queue.length =
              state.node.vtime + { state.node with
                sim := ⟨diary,first.invokeTime,.invoking first⟩ }.progress := by
            rw [progress_later,current,add_assoc]
          cases first with
          | other id' time' =>
            exact .serving e others id time busy rfl whole queue next pending finishes updated
          | endOfService id' time' =>
            rw [List.filter_cons_of_pos rfl,List.cons.injEq] at pending
            obtain ⟨same,nothing⟩ := pending
            cases same
            refine .firing e others busy rfl whole nothing queue ?_ updated
            rw [updated]
            exact ((virtual_ahead queue finishes le_rfl).2 rfl).symm
        | firing _ _ _ inside | forwarding _ inside =>
          rw [inside] at away
          cases away
      · intro e member
        cases kept.phase with
        | idle _ _ _ _ empty _ =>
          have none_ : e ∈ state.node.queue := member
          rw [empty] at none_
          cases none_
        | serving head others id time busy _ whole queue next pending finishes current =>
          have due : first.invokeTime ≤ time := by
            have found : Event.endOfService id time ∈ (first :: rest).filter Event.isEnd := by
              rw [pending]
              exact List.mem_singleton_self _
            rcases List.mem_cons.mp (List.mem_filter.mp found).1 with same | later
            · rw [← same]
              exact le_rfl
            · exact (List.pairwise_cons.mp kept.timely.sorted).1 _ later
          have before : virtual + (first.invokeTime - state.node.sim.vtime) / state.node.queue.length ≤ head.time := by
            have bound := (virtual_ahead queue finishes due).1
            rw [current,add_assoc]
            have whole_ := @progress_later _ state.node first.invokeTime diary (.invoking first)
            rw [← whole_]
            exact bound
          have among : e ∈ head :: others := queue ▸ member
          rcases List.mem_cons.mp among with rfl | later
          · exact before
          · have sorted := kept.sorted
            rw [queue] at sorted
            exact before.trans ((List.pairwise_cons.mp sorted).1 e later)
        | firing _ _ _ inside | forwarding _ inside =>
          rw [inside] at away
          cases away

/-- The first customer leaves at its virtual finishing time. -/
private theorem kept_leave (kept : Kept origin state events virtual) (inside : state.node.inEvent = true)
    (first : state.node.forwarding = false) (left : state.node.leave = some node) :
    Kept origin ⟨node,state.history.after state.node .leave⟩ events virtual := by
  cases kept.phase with
  | idle _ away | serving _ _ _ _ _ away =>
    rw [inside] at away
    cases away
  | forwarding _ _ half =>
    rw [first] at half
    cases half
  | firing e rest busy _ _ nothing queue finished current =>
    unfold ProcessorSharingNode.leave at left
    rw [queue] at left
    have result := Option.some.inj left
    subst result
    have sorted := kept.sorted
    have ahead := kept.ahead
    have books := kept.books
    rw [queue] at sorted ahead books
    refine ⟨kept.timely,.forwarding busy inside rfl nothing ?_,(List.pairwise_cons.mp sorted).2,?_,?_⟩
    · exact current
    · exact fun other member => ahead other (List.mem_cons_of_mem _ member)
    · have history : state.history.after state.node .leave = departed state.history e.id state.node.sim.vtime := by
        unfold History.after
        rw [queue]
        rfl
      rw [history]
      exact books_leave books finished

/-- The simulator goes on after the node's own event. -/
private theorem returns_eq {id : Nat} {time : ℚ} (place : node.sim.position = .invoking (.endOfService id time)) :
    node.simulate .returns = some { node with sim := { node.sim with position := .looping } } := by
  unfold ProcessorSharingNode.simulate EventSimulation.step
  rw [place]
  rfl

private theorem place_of_inEvent (inside : node.inEvent = true) :
    ∃ id time, node.sim.position = .invoking (.endOfService id time) := by
  unfold ProcessorSharingNode.inEvent at inside
  cases place : node.sim.position with
  | outside | looping => simp [place] at inside
  | invoking e =>
    cases e with
    | other _ _ => simp [place] at inside
    | endOfService id time => exact ⟨id,time,rfl⟩

/-- The next end of service is scheduled, or the server is free; neither fails. -/
private theorem kept_finish (kept : Kept origin state events virtual) (half : state.node.forwarding = true) :
    ∃ node later, state.node.step .finish = some node ∧ node.sim.position = .looping ∧ node.queue = state.node.queue ∧
      later.length ≤ events.length + 1 ∧ (state.node.queue = [] → later = events) ∧
      Kept origin ⟨node,state.history⟩ later virtual := by
  cases kept.phase with
  | idle _ _ whole | serving _ _ _ _ _ _ whole | firing _ _ _ _ whole =>
    rw [half] at whole
    cases whole
  | forwarding busy inside _ nothing current =>
    obtain ⟨id,time,place⟩ := place_of_inEvent inside
    have turn : state.node.step .finish = state.node.finish.bind fun left => left.simulate .returns := by
      show (if state.node.inEvent && state.node.forwarding then _ else _) = _
      rw [inside,half]
      rfl
    cases queue : state.node.queue with
    | nil =>
      have released : state.node.finish =
          some { state.node with resources := state.node.resources + 1,forwarding := false } := by
        unfold ProcessorSharingNode.finish
        rw [if_pos queue,if_pos (by omega)]
      rw [turn,released,Option.bind_some]
      refine ⟨_,events,returns_eq place,rfl,queue,by omega,fun _ => rfl,?_,?_,kept.sorted,kept.ahead,kept.books⟩
      · exact ⟨kept.timely.holds,kept.timely.sorted,kept.timely.due⟩
      · refine .idle ?_ rfl rfl nothing queue current
        show state.node.resources + 1 = 1
        omega
    | cons e rest =>
      have first : state.node.vtime ≤ e.time := by
        rw [← current]
        exact kept.ahead e (by rw [queue]; exact List.mem_cons_self)
      obtain ⟨diary,later,scheduled,timely,arranged⟩ :=
        @serviceNextCustomer_timely _ { state.node with forwarding := false } _ e rest kept.timely queue first
      have more : state.node.queue ≠ [] := by
        rw [queue]
        exact List.cons_ne_nil _ _
      have next : state.node.finish = { state.node with forwarding := false }.serviceNextCustomer := if_neg more
      rw [turn,next,scheduled,Option.bind_some]
      refine ⟨served { state.node with forwarding := false } e diary .looping,later,returns_eq place,rfl,queue,
        arranged.length_eq.le,fun empty => absurd empty (List.cons_ne_nil _ _),?_,?_,kept.sorted,kept.ahead,kept.books⟩
      · exact ⟨timely.holds,timely.sorted,timely.due⟩
      · rw [current]
        exact @phase_served _ { state.node with forwarding := false } events later e rest diary .looping busy rfl rfl queue
          arranged nothing

private theorem inEvent_of_place {sim : Sim Event ℚ} (place : sim.position = state.node.sim.position) :
    { state.node with sim }.inEvent = state.node.inEvent := by
  unfold ProcessorSharingNode.inEvent
  rw [place]

/-- A step of the rest of the network. -/
private theorem kept_environment {s : EventSimulation.Step Event} (kept : Kept origin state events virtual)
    (moved : state.node.simulate s = some node)
    (environment : (∃ id time, s = .schedule (.other id time) ∧ state.node.sim.vtime ≤ time) ∨
      (∃ id time, s = .deschedule (.other id time)) ∨ s = .go ∨ s = .returns ∧ state.node.inEvent = false) :
    ∃ later, Kept origin ⟨node,state.history⟩ later virtual := by
  obtain ⟨sim,stepped,rfl⟩ := Option.map_eq_some_iff.mp moved
  rcases environment with ⟨id,time,rfl,due⟩ | ⟨id,time,rfl⟩ | rfl | ⟨rfl,away⟩
  · have due' : state.node.sim.vtime ≤ (Event.other id time).invokeTime := due
    obtain ⟨diary,later,scheduled,timely,arranged⟩ := timely_schedule kept.timely due'
    simp only [EventSimulation.step,Option.ite_none_left_eq_some,scheduled,Option.some.injEq] at stepped
    obtain ⟨_,rfl⟩ := stepped
    have same : (later.filter Event.isEnd).Perm (events.filter Event.isEnd) := arranged.filter _
    exact ⟨later,kept_simulator kept timely same (inEvent_of_place rfl) rfl⟩
  · simp only [EventSimulation.step,Option.ite_none_left_eq_some] at stepped
    by_cases member : Event.other id time ∈ events
    · obtain ⟨diary,descheduled,timely⟩ := timely_deschedule kept.timely member
      rw [descheduled,Option.some.injEq] at stepped
      obtain ⟨_,rfl⟩ := stepped
      have split : (events.filter Event.isEnd).Perm ((events.erase (.other id time)).filter Event.isEnd) :=
        (List.perm_cons_erase member).filter _
      exact ⟨_,kept_simulator kept timely split.symm (inEvent_of_place rfl) rfl⟩
    · rw [Sim.deschedule,remove_absent kept.timely.holds member] at stepped
      cases stepped.2
  · simp only [EventSimulation.step,Option.ite_none_right_eq_some,Option.some.injEq] at stepped
    obtain ⟨outside,rfl⟩ := stepped
    have away : state.node.inEvent = false := by
      unfold ProcessorSharingNode.inEvent
      rw [outside]
    exact ⟨events,kept_simulator kept ⟨kept.timely.holds,kept.timely.sorted,kept.timely.due⟩ (List.Perm.refl _) away.symm
      rfl⟩
  · cases place : state.node.sim.position with
    | outside | looping => simp [EventSimulation.step,place] at stepped
    | invoking e =>
      simp only [EventSimulation.step,place,Option.some.injEq] at stepped
      subst stepped
      exact ⟨events,kept_simulator kept ⟨kept.timely.holds,kept.timely.sorted,kept.timely.due⟩ (List.Perm.refl _)
        away.symm rfl⟩

private theorem step_kept (kept : Kept origin state events virtual) (legal : Legal state s)
    (stepped : record state s = some next) : ∃ later virtual, Kept origin next later virtual := by
  obtain ⟨node,moved,rfl⟩ := Option.map_eq_some_iff.mp stepped
  cases s with
  | enter c serviceTime =>
    obtain ⟨demand,away⟩ := legal
    simp only [ProcessorSharingNode.step,Option.ite_none_left_eq_some] at moved
    obtain ⟨same,later,accepted,kept'⟩ := kept_enter c kept demand away
    rw [moved.2,Option.some.injEq] at accepted
    subst accepted
    exact ⟨later,virtual,kept'⟩
  | schedule id time =>
    obtain ⟨later,kept'⟩ := kept_environment kept moved (Or.inl ⟨id,time,rfl,legal⟩)
    exact ⟨later,virtual,kept'⟩
  | deschedule id time =>
    obtain ⟨later,kept'⟩ := kept_environment kept moved (Or.inr (Or.inl ⟨id,time,rfl⟩))
    exact ⟨later,virtual,kept'⟩
  | go =>
    obtain ⟨later,kept'⟩ := kept_environment kept moved (Or.inr (Or.inr (Or.inl rfl)))
    exact ⟨later,virtual,kept'⟩
  | iterate stops => exact kept_iterate kept moved
  | returns =>
    simp only [ProcessorSharingNode.step,Option.ite_none_left_eq_some,Bool.not_eq_true] at moved
    obtain ⟨later,kept'⟩ := kept_environment kept moved.2 (Or.inr (Or.inr (Or.inr ⟨rfl,moved.1⟩)))
    exact ⟨later,virtual,kept'⟩
  | leave =>
    simp only [ProcessorSharingNode.step,Option.ite_none_right_eq_some,Bool.and_eq_true,Bool.not_eq_true'] at moved
    obtain ⟨⟨inside,first⟩,left⟩ := moved
    exact ⟨events,virtual,kept_leave kept inside first left⟩
  | finish =>
    have half : state.node.forwarding = true := by
      simp only [ProcessorSharingNode.step,Option.ite_none_right_eq_some,Bool.and_eq_true] at moved
      exact moved.1.2
    obtain ⟨same,later,finished,_,_,_,_,kept'⟩ := kept_finish kept half
    rw [moved,Option.some.injEq] at finished
    subst finished
    exact ⟨later,virtual,kept'⟩

/-- Nobody leaves twice. -/
private theorem step_departure (kept : Kept origin state events virtual) (stepped : record state s = some next) {j : Nat}
    {d : ℚ} (departs : state.history.departure j = some d) : next.history.departure j = some d := by
  obtain ⟨node,_,rfl⟩ := Option.map_eq_some_iff.mp stepped
  cases s with
  | enter _ _ | schedule _ _ | deschedule _ _ | go | iterate _ | returns | finish => exact departs
  | leave =>
    show (state.history.after state.node .leave).departure j = some d
    unfold History.after
    cases queue : state.node.queue with
    | nil => exact departs
    | cons e rest =>
      have stays := (kept.books.waiting e (by rw [queue]; exact List.mem_cons_self)).2.1
      have differs : j ≠ e.id := by
        rintro rfl
        rw [departs] at stays
        cases stays
      exact (Function.update_of_ne differs _ _).trans departs

/-! ## The end of a run without further arrivals -/

/-- The node and the diary go on by themselves. -/
private def Continues (state final : Recorded Customer) : Prop :=
  ∃ further, (∀ s ∈ further, Step.quiet s = true) ∧ run record state further = some final

private theorem continues_step {final : Recorded Customer} (s : Step Customer) (quiet : s.quiet = true)
    (stepped : record state s = some next) (goes : Continues next final) : Continues state final := by
  obtain ⟨further,all,executed⟩ := goes
  refine ⟨s :: further,?_,(run_cons _ _ _ _).mpr ⟨next,stepped,executed⟩⟩
  intro other member
  rcases List.mem_cons.mp member with rfl | member
  · exact quiet
  · exact all other member

private theorem legal_of_quiet (quiet : s.quiet = true) : Legal state s := by
  cases s with
  | enter _ _ | schedule _ _ | deschedule _ _ => cases quiet
  | go | iterate _ | returns | leave | finish => trivial

/-- The second half of the node's own event ends at the head of the loop. -/
private theorem half_ends (kept : Kept origin state events virtual) (half : state.node.forwarding = true) :
    ∃ next later, Continues state next ∧ next.node.sim.position = .looping ∧ Kept origin next later virtual ∧
      later.length ≤ events.length + 1 ∧ next.node.queue = state.node.queue := by
  obtain ⟨node,later,finished,looping,queue,few,_,kept'⟩ := kept_finish kept half
  refine ⟨⟨node,state.history⟩,later,?_,looping,kept',few,queue⟩
  exact continues_step .finish rfl (congrArg (Option.map _) finished) ⟨[],nofun,rfl⟩

/-- So does the whole of it, which takes a customer from the queue. -/
private theorem event_ends (kept : Kept origin state events virtual) (inside : state.node.inEvent = true)
    (first : state.node.forwarding = false) :
    ∃ next later, Continues state next ∧ next.node.sim.position = .looping ∧ Kept origin next later virtual ∧
      later.length ≤ events.length + 1 ∧ next.node.queue.length + 1 = state.node.queue.length := by
  cases kept.phase with
  | idle _ away | serving _ _ _ _ _ away =>
    rw [inside] at away
    cases away
  | forwarding _ _ half =>
    rw [first] at half
    cases half
  | firing e rest _ _ _ _ queue _ _ =>
    have left : state.node.leave = some { state.node with
        vtime := state.node.vtime + state.node.progress,queue := rest,forwarding := true } := by
      unfold ProcessorSharingNode.leave
      rw [queue]
    have turn : state.node.step .leave = state.node.leave := by
      show (if state.node.inEvent && !state.node.forwarding then _ else _) = _
      rw [inside,first]
      rfl
    obtain ⟨next,later,goes,looping,kept',few,same⟩ := half_ends (kept_leave kept inside first left) rfl
    refine ⟨next,later,?_,looping,kept',few,?_⟩
    · exact continues_step .leave rfl (congrArg (Option.map _) (turn.trans left)) goes
    · rw [same,queue]
      rfl

private theorem continues_trans {middle final : Recorded Customer} (first : Continues state middle)
    (second : Continues middle final) : Continues state final := by
  obtain ⟨before,all,executed⟩ := first
  obtain ⟨after,all',executed'⟩ := second
  refine ⟨before ++ after,?_,(run_append _ _ _ _).mpr ⟨middle,executed,executed'⟩⟩
  intro s member
  rcases List.mem_append.mp member with member | member
  · exact all s member
  · exact all' s member

/-- The end of another event. -/
private theorem other_ends {id : Nat} {time : ℚ} (kept : Kept origin state events virtual)
    (place : state.node.sim.position = .invoking (.other id time)) :
    ∃ next later, Continues state next ∧ next.node.sim.position = .looping ∧ Kept origin next later virtual ∧
      later = events ∧ next.node.queue = state.node.queue := by
  have away : state.node.inEvent = false := by
    unfold ProcessorSharingNode.inEvent
    rw [place]
  have moved : state.node.step .returns = some { state.node with sim := { state.node.sim with position := .looping } } := by
    show (if state.node.inEvent then none else _) = _
    rw [away]
    unfold ProcessorSharingNode.simulate EventSimulation.step
    rw [place]
    rfl
  refine ⟨⟨{ state.node with sim := { state.node.sim with position := .looping } },state.history⟩,events,?_,rfl,?_,rfl,rfl⟩
  · exact continues_step .returns rfl (congrArg (Option.map _) moved) ⟨[],nofun,rfl⟩
  · exact kept_simulator kept ⟨kept.timely.holds,kept.timely.sorted,kept.timely.due⟩ (List.Perm.refl _) away.symm rfl

/-- From the head of the loop the node empties. -/
private theorem empties (count : Nat) (kept : Kept origin state events virtual)
    (looping : state.node.sim.position = .looping) (enough : events.length + state.node.queue.length ≤ count) :
    ∃ final, Continues state final ∧ final.node.queue = [] := by
  induction count generalizing state events virtual with
  | zero =>
    have empty : state.node.queue = [] := List.eq_nil_of_length_eq_zero (by omega)
    exact ⟨state,⟨[],nofun,rfl⟩,empty⟩
  | succ count ih =>
    cases kept.phase with
    | idle _ _ _ _ empty _ => exact ⟨state,⟨[],nofun,rfl⟩,empty⟩
    | firing _ _ _ inside | forwarding _ inside =>
      obtain ⟨_,_,place⟩ := place_of_inEvent inside
      rw [looping] at place
      cases place
    | serving e rest id time _ _ whole queue _ pending _ _ =>
      cases events with
      | nil => cases pending
      | cons head others =>
        obtain ⟨_,diary,removed,timely⟩ := timely_removeFromFront kept.timely (.invoking head)
        have more : ¬(state.node.sim.diary.isEmpty || false) = true := by
          rw [Bool.or_false,holds_isEmpty kept.timely.holds]
          exact List.cons_ne_nil _ _
        have moved : state.node.step (.iterate false) =
            some { state.node with sim := ⟨diary,head.invokeTime,.invoking head⟩ } := by
          show Option.map _ (if state.node.sim.position = .looping then _ else none) = _
          rw [if_pos looping,Sim.iterate,if_neg more,removed]
          rfl
        have stepped : record state (.iterate false) =
            some ⟨{ state.node with sim := ⟨diary,head.invokeTime,.invoking head⟩ },state.history⟩ :=
          congrArg (Option.map _) moved
        obtain ⟨later,virtual',kept'⟩ := step_kept kept (legal_of_quiet rfl) stepped
        have same : later = others :=
          (contents_eq kept'.timely.holds).symm.trans (contents_eq timely.holds)
        subst same
        simp only [List.length_cons] at enough
        cases head with
        | endOfService id' time' =>
          obtain ⟨next,later',goes,looping',kept'',few,fewer⟩ := event_ends kept' rfl whole
          have shorter : next.node.queue.length + 1 = state.node.queue.length := fewer
          obtain ⟨final,goes',empty⟩ := ih kept'' looping' (by omega)
          exact ⟨final,continues_step _ rfl stepped (continues_trans goes goes'),empty⟩
        | other id' time' =>
          obtain ⟨next,later',goes,looping',kept'',same,queue'⟩ := other_ends kept' rfl
          have unchanged : next.node.queue.length = state.node.queue.length := congrArg List.length queue'
          obtain ⟨final,goes',empty⟩ := ih kept'' looping' (by rw [same]; omega)
          exact ⟨final,continues_step _ rfl stepped (continues_trans goes goes'),empty⟩

/-- From wherever the simulator is, the node empties. -/
private theorem empties_anywhere (kept : Kept origin state events virtual) :
    ∃ final, Continues state final ∧ final.node.queue = [] := by
  cases place : state.node.sim.position with
  | looping => exact empties _ kept place le_rfl
  | outside =>
    have moved : state.node.step .go = some { state.node with sim := { state.node.sim with position := .looping } } := by
      show Option.map _ (if state.node.sim.position = .outside then _ else none) = _
      rw [if_pos place]
      rfl
    have stepped := congrArg (Option.map fun node : ProcessorSharingNode Customer =>
      (⟨node,state.history.after state.node .go⟩ : Recorded Customer)) moved
    obtain ⟨later,virtual',kept'⟩ := step_kept kept (legal_of_quiet rfl) stepped
    obtain ⟨final,goes,empty⟩ := empties _ kept' rfl le_rfl
    exact ⟨final,continues_step _ rfl stepped goes,empty⟩
  | invoking e =>
    cases e with
    | other id time =>
      obtain ⟨next,later,goes,looping,kept',_,_⟩ := other_ends kept place
      obtain ⟨final,goes',empty⟩ := empties _ kept' looping le_rfl
      exact ⟨final,continues_trans goes goes',empty⟩
    | endOfService id time =>
      have inside : state.node.inEvent = true := by
        unfold ProcessorSharingNode.inEvent
        rw [place]
      cases half : state.node.forwarding with
      | true =>
        obtain ⟨next,later,goes,looping,kept',_,_⟩ := half_ends kept half
        obtain ⟨final,goes',empty⟩ := empties _ kept' looping le_rfl
        exact ⟨final,continues_trans goes goes',empty⟩
      | false =>
        obtain ⟨next,later,goes,looping,kept',_,_⟩ := event_ends kept inside half
        obtain ⟨final,goes',empty⟩ := empties _ kept' looping le_rfl
        exact ⟨final,continues_trans goes goes',empty⟩

/-- What the rest of a run keeps. -/
private theorem continues_kept {final : Recorded Customer} (kept : Kept origin state events virtual)
    (goes : Continues state final) : (∃ later virtual, Kept origin final later virtual) ∧
      ∀ j d, state.history.departure j = some d → final.history.departure j = some d := by
  obtain ⟨further,quiet,executed⟩ := goes
  induction further generalizing state events virtual with
  | nil =>
    cases executed
    exact ⟨⟨events,virtual,kept⟩,fun _ _ departs => departs⟩
  | cons s rest ih =>
    obtain ⟨next,stepped,remaining⟩ := (run_cons _ _ _ _).mp executed
    obtain ⟨later,virtual',kept'⟩ := step_kept kept (legal_of_quiet (quiet s List.mem_cons_self)) stepped
    obtain ⟨kept_final,departures⟩ := ih kept' (fun s member => quiet s (List.mem_cons_of_mem _ member)) remaining
    exact ⟨kept_final,fun j d departs => departures j d (step_departure kept stepped departs)⟩

end Steps

/-! ## The theorem -/

/-- A node as it is built, in a simulator that has not started. -/
def start (Customer : Type) (now : ℚ) : Recorded Customer := ⟨{ sim := { vtime := now } },{}⟩

private theorem kept_start (now : ℚ) : Kept now (start Customer now) [] 0 where
  timely := ⟨holds_empty,List.Pairwise.nil,nofun⟩
  phase := .idle rfl rfl rfl rfl rfl rfl
  sorted := List.Pairwise.nil
  ahead := nofun
  books := by
    refine ⟨List.nodup_nil,nofun,nofun,fun _ _ => rfl,nofun,nofun,le_rfl,?_⟩
    simp [History.service,start]

/-- However customers arrive with whatever demands, the next one is accepted, the node can go on by itself until it is
    empty, and wherever it is empty everybody has left at the times of ideal processor sharing. -/
theorem departures_ideal (now : ℚ) (steps : List (Step Customer)) (last : Recorded Customer)
    (executed : run record (start Customer now) steps = some last) (legal : Meets record Legal (start Customer now) steps) :
    (last.node.queue = [] → Ideal last.node.entries last.history) ∧
      (∀ c serviceTime, Legal last (.enter c serviceTime) → last.node.sim.position ≠ .looping →
        ∃ next, record last (.enter c serviceTime) = some next) ∧
      ∃ further final, (∀ s ∈ further, Step.quiet s = true) ∧ run record last further = some final ∧
        final.node.queue = [] ∧ Ideal final.node.entries final.history ∧
        ∀ j d, last.history.departure j = some d → final.history.departure j = some d := by
  have whole : ∃ events virtual, Kept now last events virtual := by
    refine @invariant_of_meets _ _ record Legal (fun state => ∃ events virtual, Kept now state events virtual) ?_ _ _ _
      ⟨[],0,kept_start now⟩ legal executed
    rintro state s next ⟨events,virtual,kept⟩ lawful stepped
    exact step_kept kept lawful stepped
  obtain ⟨events,virtual,kept⟩ := whole
  have ideal : ∀ {state : Recorded Customer}, (∃ events virtual, Kept now state events virtual) →
      state.node.queue = [] → Ideal state.node.entries state.history := by
    rintro state ⟨events,virtual,kept⟩ empty
    have books := kept.books
    rw [empty] at books
    exact ideal_of_books books
  refine ⟨ideal ⟨events,virtual,kept⟩,?_,?_⟩
  · intro c serviceTime lawful place
    obtain ⟨node,_,accepted,_⟩ := kept_enter c kept lawful.1 lawful.2
    exact ⟨_,congrArg (Option.map _) ((if_neg place).trans accepted)⟩
  obtain ⟨final,goes,empty⟩ := empties_anywhere kept
  obtain ⟨kept_final,departures⟩ := continues_kept kept goes
  obtain ⟨further,quiet,reached⟩ := goes
  exact ⟨further,final,quiet,reached,empty,ideal kept_final empty,departures⟩

/-- A second customer arrives when the first one is half served, with as much to do. -/
private def twoCustomers : List (Step Nat) :=
  [.enter 0 2,.schedule 0 1,.go,.iterate false,.enter 1 1,.returns,.iterate false,.leave,.finish,.iterate false,.leave,
    .finish]

theorem departures_ideal_two_customers : ∃ last, run record (start Nat 0) twoCustomers = some last ∧
    last.history.departure 0 = some 3 ∧ last.history.departure 1 = some 3 ∧
      Ideal last.node.entries last.history := by
  obtain ⟨last,executed,checked⟩ := @exists_of_checked _ _ record
    (fun last : Recorded Nat => decide (last.node.queue = [] ∧ last.history.departure 0 = some 3 ∧
      last.history.departure 1 = some 3))
    (start Nat 0) twoCustomers (by decide +kernel)
  obtain ⟨empty,first,second⟩ := of_decide_eq_true checked
  exact ⟨last,executed,first,second,
    (departures_ideal 0 twoCustomers last executed (by decide +kernel)).1 empty⟩

end Vexjine.ProcessorSharing
