import Mathlib.Logic.Relation
import Vexjine.QueueingNetworks

/-!
# The moves of a customer

What the network does between two events of the simulator is a sequence of moves, each of which takes at most one
customer from one place to another. What every move keeps is kept by every step of the program.
-/

namespace Vexjine.QueueingNetworks
open Vexjine.LinkedLists
open Vexjine.Diary
open Vexjine.EventSimulation (Sim holds_schedule)
open Relation (ReflTransGen)

/-- A service whose end is pending. -/
structure Service where
  customer : ℕ
  node : ℕ
  ends : ℚ
  deriving DecidableEq

def Event.service (e : Event) : Option Service :=
  match e.action with
  | .endService c n => some ⟨c,n,e.invokeTime⟩
  | .arrival _ | .endOfWarmUp => none

def services (events : List Event) : List Service := events.filterMap Event.service

/-- A network between two moves, with the services whose ends are pending, the customer that is on its way, and the
    node that has yet to release the resource of a customer that has left it. -/
structure Floor where
  net : Network
  services : List Service
  hand : List ℕ := []
  releasing : Option ℕ := none

namespace Network
variable (net : Network)

/-- After something has been scheduled. -/
def scheduled (diary : LinkedList Event) : Network := { net with sim := { net.sim with diary },nextId := net.nextId + 1 }

/-- At another moment of the simulator and of the samplers. -/
def quiet (sim : Sim Event ℚ) (nextId drawn : ℕ) : Network := { net with sim,nextId,drawn }

end Network

/-- The kind of a node. -/
def kindOf (config : List Station) (n : ℕ) : Option Kind := (config[n]?).map Station.kind

def poolOf (config : List Station) (n : ℕ) : Option Pool := (kindOf config n).bind Kind.pool

/-- A move of one customer, or one that moves nobody. The measures may be reset or not, and events dropped
    or not. -/
inductive Move (config : List Station) (samplers : Samplers) (resets drops : Bool) : Floor → Floor → Prop
  | quiet {net : Network} {pending later : List Service} {hand : List ℕ} {r : Option ℕ} {sim : Sim Event ℚ}
      (nextId drawn : ℕ)
      (same : later.Perm pending) (time : hand = [] ∧ r = none ∨ sim.vtime = net.now) :
      Move config samplers resets drops ⟨net,pending,hand,r⟩ ⟨net.quiet sim nextId drawn,later,hand,r⟩
  | build {net : Network} {pending : List Service} {r : Option ℕ} {type : ℤ} (within : 0 ≤ type ∧ type ≤ maxClasses) :
      Move config samplers resets drops ⟨net,pending,[],r⟩ ⟨net.buildCustomer type,pending,[net.customerId],r⟩
  | locate {net : Network} {pending : List Service} {r : Option ℕ} (n c : ℕ) :
      Move config samplers resets drops ⟨net,pending,[c],r⟩ ⟨net.setLocation n c,pending,[c],r⟩
  | sample {net : Network} {pending : List Service} {r : Option ℕ} (n c : ℕ) :
      Move config samplers resets drops ⟨net,pending,[c],r⟩ ⟨net.sampleDemand samplers n c,pending,[c],r⟩
  | arrive {net : Network} {pending : List Service} {r : Option ℕ} (n c : ℕ) :
      Move config samplers resets drops ⟨net,pending,[c],r⟩ ⟨net.arrive n c,pending,[c],r⟩
  | complete {net : Network} {pending : List Service} {r : Option ℕ} {n c : ℕ} (at_n :
      (net.customers c).location = some n)
      (sink : kindOf config n = some .sink) : Move config samplers resets drops ⟨net,pending,[c],r⟩ ⟨net.complete c,pending,[],r⟩
  | serve {net : Network} {pending later : List Service} {r : Option ℕ} {n c : ℕ} {diary : LinkedList Event}
      (at_n : (net.customers c).location = some n) (server : kindOf config n = some .infiniteServer)
      (added : later.Perm (⟨c,n,net.now + (net.customers c).serviceDemand⟩ :: pending)) :
      Move config samplers resets drops ⟨net,pending,[c],r⟩ ⟨(net.start c).scheduled diary,later,[],r⟩
  | claim {net : Network} {pending later : List Service} {r : Option ℕ} {n c : ℕ} {diary : LinkedList Event} {pool : Pool}
      {resources : Resource} (at_n : (net.customers c).location = some n) (server : poolOf config n = some pool)
      (claimed : (net.nodes n).resources.claim net.now = some resources)
      (added : later.Perm (⟨c,n,net.now + (net.customers c).serviceDemand⟩ :: pending)) :
      Move config samplers resets drops ⟨net,pending,[c],r⟩
        ⟨((net.setNode n { net.nodes n with resources }).start c).scheduled diary,later,[],r⟩
  | enqueue {net next : Network} {pending : List Service} {r : Option ℕ} {n c : ℕ} {pool : Pool}
      (at_n : (net.customers c).location = some n) (server : poolOf config n = some pool)
      (busy : (net.nodes n).resources.resources ≤ 0) (enqueued : net.enqueue samplers pool.discipline n c = some next) :
      Move config samplers resets drops ⟨net,pending,[c],r⟩ ⟨next,pending,[],r⟩
  | absorb {net : Network} {pending : List Service} {r : Option ℕ} {n c : ℕ} {pool : Pool}
      (at_n : (net.customers c).location = some n) (server : poolOf config n = some pool) (alone : pool.lossNode = none) :
      Move config samplers resets drops ⟨net,pending,[c],r⟩ ⟨(net.lose n).absorb c,pending,[],r⟩
  | lose {net : Network} {pending : List Service} {r : Option ℕ} {n c : ℕ} {pool : Pool}
      (server : poolOf config n = some pool) (passed : pool.lossNode ≠ none) :
      Move config samplers resets drops ⟨net,pending,[c],r⟩ ⟨net.lose n,pending,[c],r⟩
  | fire {net : Network} {pending later : List Service} {sim : Sim Event ℚ} (c n : ℕ)
      (first : pending.Perm (⟨c,n,sim.vtime⟩ :: later)) :
      Move config samplers resets drops ⟨net,pending,[],none⟩ ⟨(net.quiet sim net.nextId net.drawn).serves n c,later,[c],
        if (kindOf config n).any Kind.releases then some n else none⟩
  | drop {net : Network} {pending later : List Service} {sim : Sim Event ℚ} (c n : ℕ) (allowed : drops = true)
      (first : pending.Perm (⟨c,n,sim.vtime⟩ :: later)) :
      Move config samplers resets drops ⟨net,pending,[],none⟩
        ⟨(net.quiet sim net.nextId net.drawn).drop (.endService c n),later,[],none⟩
  | handOver {net : Network} {pending later : List Service} {r : Option ℕ} {n c : ℕ} {diary : LinkedList Event}
      {pool : Pool}
      {next : Network} (server : poolOf config n = some pool)
      (mine : r = if (kindOf config n).any Kind.releases then some n else none) (dequeued : net.dequeue n = some (c,next))
      (added : later.Perm (⟨c,n,net.now + (net.customers c).serviceDemand⟩ :: pending)) :
      Move config samplers resets drops ⟨net,pending,[],r⟩ ⟨(next.start c).scheduled diary,later,[],none⟩
  | free {net : Network} {pending : List Service} {r : Option ℕ} {n : ℕ} {pool : Pool} {resources : Resource}
      (server : poolOf config n = some pool) (mine : r = if (kindOf config n).any Kind.releases then some n else none)
      (empty : (net.nodes n).queue.isEmpty = true)
      (released : (net.nodes n).resources.release net.now = some resources) :
      Move config samplers resets drops ⟨net,pending,[],r⟩ ⟨net.setNode n { net.nodes n with resources },pending,[],none⟩
  | reset {net : Network} {pending : List Service} (allowed : resets = true) :
      Move config samplers resets drops ⟨net,pending,[],none⟩ ⟨net.resetMeasures config,pending,[],none⟩

/-- Any number of moves. -/
def Moves (config : List Station) (samplers : Samplers) (resets drops : Bool) : Floor → Floor → Prop :=
  ReflTransGen (Move config samplers resets drops)

section Services
variable {events later : List Event}

@[simp] theorem services_nil : services [] = [] := rfl

theorem services_perm (arranged : later.Perm events) : (services later).Perm (services events) := arranged.filterMap _

theorem services_endService (id : ℕ) (time : ℚ) (c n : ℕ) (events : List Event) :
    services (⟨id,time,.endService c n⟩ :: events) = ⟨c,n,time⟩ :: services events := rfl

theorem services_other {e : Event} (other : e.service = none) (events : List Event) :
    services (e :: events) = services events := List.filterMap_cons_none other

end Services

section Refinement
variable {config : List Station} {samplers : Samplers} {resets drops : Bool} {depth : ℕ} {net next : Network}
  {events : List Event} {n c : ℕ} {r : Option ℕ}

/-- The floor of a network whose diary holds these events. -/
abbrev floor (net : Network) (events : List Event) (hand : List ℕ) (r : Option ℕ) : Floor := ⟨net,services events,hand,r⟩

theorem schedule_holds (holds : Holds net.sim.diary events) (time : ℚ) (action : Action) :
    ∃ diary later, net.schedule time action = some (net.scheduled diary) ∧ Holds diary later ∧
      later.Perm (⟨net.nextId,time,action⟩ :: events) := by
  obtain ⟨diary,later,scheduled,holds',arranged⟩ := holds_schedule holds Event.invokeTime ⟨net.nextId,time,action⟩
  refine ⟨diary,later,?_,holds',arranged⟩
  rw [Network.schedule,scheduled,Option.map_some]
  rfl

/-- What serving a customer adds to the diary. -/
private theorem invokeService_holds (holds : Holds net.sim.diary events) (served : net.invokeService n c = some next) :
    ∃ diary later, next = (net.start c).scheduled diary ∧ Holds diary later ∧
      (services later).Perm (⟨c,n,net.now + (net.customers c).serviceDemand⟩ :: services events) := by
  have begun : Holds (net.start c).sim.diary events := holds
  obtain ⟨diary,later,scheduled,holds',arranged⟩ :=
    schedule_holds begun (net.now + (net.customers c).serviceDemand) (.endService c n)
  have same := served.symm.trans scheduled
  exact ⟨diary,later,Option.some.inj same,holds',services_perm arranged⟩

/-- Scheduling something else moves nobody. -/
private theorem moves_schedule {time : ℚ} {action : Action} {hand : List ℕ}
    (holds : Holds net.sim.diary events) (other : (Event.mk net.nextId time action).service = none)
    (scheduled : net.schedule time action = some next) :
    ∃ later, Holds next.sim.diary later ∧
      Moves config samplers resets drops (floor net events hand r) (floor next later hand r) := by
  obtain ⟨diary,later,same,holds',arranged⟩ := schedule_holds holds time action
  obtain rfl := Option.some.inj (scheduled.symm.trans same)
  refine ⟨later,holds',.single ?_⟩
  refine .quiet (net.nextId + 1) net.drawn ?_ (.inr rfl)
  rw [← services_other other events]
  exact services_perm arranged

theorem moves_draw (hand : List ℕ) :
    Moves config samplers resets drops (floor net events hand r) (floor net.draw events hand r) :=
  .single (.quiet net.nextId (net.drawn + 1) (.refl _) (.inr rfl))

theorem moves_move (hand : List ℕ) {target : ℕ} (moved : net.move config samplers n c = some (target,next)) :
    next.sim.diary = net.sim.diary ∧
      Moves config samplers resets drops (floor net events hand r) (floor next events hand r) := by
  unfold Network.move at moved
  split at moved
  · cases moved
  · cases moved
    exact ⟨rfl,.refl⟩
  · obtain ⟨target',-,same⟩ := Option.map_eq_some_iff.mp moved
    cases same
    exact ⟨rfl,moves_draw hand⟩
  · obtain ⟨entry,-,same⟩ := Option.map_eq_some_iff.mp moved
    cases same
    exact ⟨rfl,.refl⟩

/-- Whom a visit leaves on the way. -/
def handAfter (target : Option ℕ) (c : ℕ) : List ℕ := if target.isSome then [c] else []

theorem moves_acceptAtPool {pool : Pool} {target : Option ℕ} (holds : Holds net.sim.diary events)
    (at_n : (net.customers c).location = some n) (server : poolOf config n = some pool)
    (accepted : net.acceptAtPool samplers pool n c = some (target,next)) :
    ∃ later, Holds next.sim.diary later ∧
      Moves config samplers resets drops (floor net events [c] r) (floor next later (handAfter target c) r) := by
  unfold Network.acceptAtPool at accepted
  by_cases available : (net.nodes n).resources.resourceIsAvailable = true
  · rw [if_pos available] at accepted
    obtain ⟨next',served,same⟩ := Option.map_eq_some_iff.mp accepted
    cases same
    obtain ⟨claimed,taken,served⟩ := Option.bind_eq_some_iff.mp served
    obtain ⟨resources,claimed',rfl⟩ := Option.map_eq_some_iff.mp taken
    obtain ⟨diary,later,rfl,holds',added⟩ := invokeService_holds (by exact holds) served
    exact ⟨later,holds',.single (.claim at_n server claimed' added)⟩
  · rw [if_neg available] at accepted
    have busy : (net.nodes n).resources.resources ≤ 0 := by
      simpa [Resource.resourceIsAvailable] using available
    by_cases room : (net.nodes n).queue.canAccept = true
    · rw [if_pos room] at accepted
      obtain ⟨next',enqueued,same⟩ := Option.map_eq_some_iff.mp accepted
      cases same
      refine ⟨events,?_,.single (.enqueue at_n server busy enqueued)⟩
      obtain ⟨queue,-,rfl⟩ := Option.map_eq_some_iff.mp enqueued
      exact holds
    · rw [if_neg room] at accepted
      split at accepted
      case h_1 alone =>
        cases accepted
        exact ⟨events,holds,.single (.absorb at_n server alone)⟩
      case h_2 target' passed =>
        cases accepted
        exact ⟨events,holds,.single (.lose server (by simp [passed]))⟩

theorem poolOf_of_kind {station : Station} {pool : Pool} (found : config[n]? = some station)
    (kind : station.kind.pool = some pool) : poolOf config n = some pool := by
  rw [poolOf,kindOf,found,Option.map_some,Option.bind_some,kind]

theorem location_arrive (net : Network) (n c : ℕ) : ((net.arrive n c).customers c).location = some n := by
  simp [Network.arrive,Network.setLocation,Network.setCustomer]

/-- The customer is at the node before the node does anything with it. -/
theorem moves_arrive (station : Station) :
    ((if station.kind.serves then net.sampleDemand samplers n c else net).arrive n c).sim.diary = net.sim.diary ∧
      Moves config samplers resets drops (floor net events [c] r)
        (floor ((if station.kind.serves then net.sampleDemand samplers n c else net).arrive n c) events [c] r) := by
  cases station.kind.serves with
  | false => exact ⟨rfl,.single (.arrive n c)⟩
  | true => exact ⟨rfl,.trans (.single (.sample n c)) (.single (.arrive n c))⟩

theorem moves_visit {target : Option ℕ} (holds : Holds net.sim.diary events)
    (visited : net.visit config samplers n c = some (target,next)) :
    ∃ later, Holds next.sim.diary later ∧
      Moves config samplers resets drops (floor net events [c] r) (floor next later (handAfter target c) r) := by
  obtain ⟨station,found,visited⟩ := Option.bind_eq_some_iff.mp visited
  obtain ⟨same,arriving⟩ := @moves_arrive config samplers resets drops net events n c r station
  have at_n := location_arrive (if station.kind.serves then net.sampleDemand samplers n c else net) n c
  dsimp only at visited
  generalize (if station.kind.serves then net.sampleDemand samplers n c else net).arrive n c = arrived
    at visited same arriving at_n
  have holds' : Holds arrived.sim.diary events := same ▸ holds
  have kind : kindOf config n = some station.kind := by rw [kindOf,found,Option.map_some]
  cases decided : station.kind with
  | node | source delayed =>
    rw [decided] at visited
    obtain ⟨moved,moving,same⟩ := Option.map_eq_some_iff.mp visited
    cases same
    obtain ⟨diary,along⟩ := @moves_move config samplers resets drops arrived moved.2 events n c r [c] moved.1 moving
    exact ⟨events,diary ▸ holds',arriving.trans along⟩
  | sink =>
    rw [decided] at visited
    cases visited
    exact ⟨events,holds',arriving.tail (.complete at_n (by rw [kind,decided]))⟩
  | infiniteServer =>
    rw [decided] at visited
    obtain ⟨served,serving,same⟩ := Option.map_eq_some_iff.mp visited
    cases same
    obtain ⟨diary,later,rfl,holds'',added⟩ := invokeService_holds holds' serving
    exact ⟨later,holds'',arriving.tail (.serve at_n (by rw [kind,decided]) added)⟩
  | resourcePool pool | queueingNode pool =>
    rw [decided] at visited
    have server : poolOf config n = some pool := poolOf_of_kind found (by rw [decided]; rfl)
    obtain ⟨later,holds'',moving⟩ := moves_acceptAtPool (r := r) holds' at_n server visited
    exact ⟨later,holds'',arriving.trans moving⟩

theorem moves_enter (holds : Holds net.sim.diary events)
    (entered : net.enter config samplers depth n c = some next) :
    ∃ later, Holds next.sim.diary later ∧
      Moves config samplers resets drops (floor net events [c] r) (floor next later [] r) := by
  induction depth generalizing net events n with
  | zero => cases entered
  | succ depth ih =>
    obtain ⟨⟨target,visited⟩,visiting,entered⟩ := Option.bind_eq_some_iff.mp entered
    obtain ⟨later,holds',moving⟩ := moves_visit (r := r) holds visiting
    cases target with
    | none =>
      cases entered
      exact ⟨later,holds',moving⟩
    | some target =>
      obtain ⟨last,holds'',further⟩ := ih holds' entered
      exact ⟨last,holds'',moving.trans further⟩

theorem moves_send (holds : Holds net.sim.diary events)
    (sent : net.send config samplers depth n c = some next) :
    ∃ later, Holds next.sim.diary later ∧
      Moves config samplers resets drops (floor net events [c] r) (floor next later [] r) := by
  obtain ⟨⟨target,moved⟩,moving,entered⟩ := Option.bind_eq_some_iff.mp sent
  obtain ⟨diary,along⟩ := @moves_move config samplers resets drops net moved events n c r [c] target moving
  obtain ⟨later,holds',further⟩ := @moves_enter config samplers resets drops depth moved next events target c r
    (diary ▸ holds) entered
  exact ⟨later,holds',along.trans further⟩

/-- A resource is released to the first customer in the queue, or becomes free. -/
private theorem moves_releaseResource {pool : Pool} (holds : Holds net.sim.diary events)
    (server : poolOf config n = some pool)
    (mine : r = if (kindOf config n).any Kind.releases then some n else none)
    (released : net.releaseResource n = some next) :
    ∃ later, Holds next.sim.diary later ∧
      Moves config samplers resets drops (floor net events [] r) (floor next later [] none) := by
  unfold Network.releaseResource at released
  by_cases empty : (net.nodes n).queue.isEmpty = true
  · rw [if_pos empty] at released
    obtain ⟨resources,freed,rfl⟩ := Option.map_eq_some_iff.mp released
    exact ⟨events,holds,.single (.free server mine empty freed)⟩
  · rw [if_neg empty] at released
    obtain ⟨⟨c,dequeued⟩,taken,served⟩ := Option.bind_eq_some_iff.mp released
    have facts : dequeued.sim = net.sim ∧ dequeued.customers = net.customers := by
      obtain ⟨first,-,same⟩ := Option.map_eq_some_iff.mp taken
      cases same
      exact ⟨rfl,rfl⟩
    have holds' : Holds dequeued.sim.diary events := by rwa [facts.1]
    obtain ⟨diary,later,rfl,holds'',added⟩ := invokeService_holds holds' served
    rw [Network.now,facts.1,facts.2] at added
    exact ⟨later,holds'',.single (.handOver server mine taken added)⟩

private theorem poolOf_of_releases (releases : ((kindOf config n).any Kind.releases) = true) :
    ∃ pool, poolOf config n = some pool := by
  rw [poolOf]
  cases kind : kindOf config n with
  | none => simp [kind] at releases
  | some kind' => cases kind' <;> simp_all [Kind.releases,Kind.pool]

theorem any_kindOf (config : List Station) (n : ℕ) :
    ((config[n]?).any fun station => station.kind.releases) = (kindOf config n).any Kind.releases := by
  rw [kindOf]
  cases config[n]? <;> rfl

private theorem moves_forward (holds : Holds net.sim.diary events)
    (mine : r = if (kindOf config n).any Kind.releases then some n else none)
    (forwarded : net.forward config samplers depth n c = some next) :
    ∃ later, Holds next.sim.diary later ∧
      Moves config samplers resets drops (floor net events [c] r) (floor next later [] none) := by
  obtain ⟨sent,sending,released⟩ := Option.bind_eq_some_iff.mp forwarded
  obtain ⟨later,holds',moving⟩ := @moves_send config samplers resets drops depth net sent events n c r holds sending
  rw [any_kindOf] at released
  by_cases releases : ((kindOf config n).any Kind.releases) = true
  · rw [if_pos releases] at released
    obtain ⟨pool,server⟩ := poolOf_of_releases releases
    obtain ⟨last,holds'',further⟩ := moves_releaseResource holds' server mine released
    exact ⟨last,holds'',moving.trans further⟩
  · rw [if_neg releases] at released mine
    cases released
    rw [mine] at moving
    exact ⟨later,holds',mine ▸ moving⟩

theorem moves_injectCustomer (holds : Holds net.sim.diary events)
    (injected : net.injectCustomer config samplers depth n = some next) :
    ∃ later, Holds next.sim.diary later ∧
      Moves config samplers resets drops (floor net events [] none) (floor next later [] none) := by
  obtain ⟨later,holds',moving⟩ := @moves_send config samplers resets drops depth _ next events n net.customerId none
    (by exact holds) injected
  exact ⟨later,holds',.trans (.single (.build (by decide))) (.trans (.single (.locate n net.customerId)) moving)⟩

theorem moves_injectCustomers {count : ℕ} (holds : Holds net.sim.diary events)
    (injected : Network.injectCustomers config samplers depth count n net = some next) :
    ∃ later, Holds next.sim.diary later ∧
      Moves config samplers resets drops (floor net events [] none) (floor next later [] none) := by
  induction count generalizing net events with
  | zero =>
    cases injected
    exact ⟨events,holds,.refl⟩
  | succ count ih =>
    obtain ⟨one,injecting,injected⟩ := Option.bind_eq_some_iff.mp injected
    obtain ⟨later,holds',moving⟩ := moves_injectCustomer holds injecting
    obtain ⟨last,holds'',further⟩ := ih holds' injected
    exact ⟨last,holds'',moving.trans further⟩

private theorem moves_scheduleArrival (holds : Holds net.sim.diary events)
    (scheduled : net.scheduleArrival config samplers n = some next) :
    ∃ later, Holds next.sim.diary later ∧
      Moves config samplers resets drops (floor net events [] none) (floor next later [] none) := by
  unfold Network.scheduleArrival at scheduled
  split at scheduled
  · obtain ⟨later,holds',moving⟩ := @moves_schedule config samplers resets drops net.draw next events none _ _ [] holds
      rfl scheduled
    exact ⟨later,holds',.trans (moves_draw []) moving⟩
  · cases scheduled
    exact ⟨events,holds,.refl⟩
  · cases scheduled

/-- The simulator goes to another place of its loop. -/
private theorem moves_position (position : EventSimulation.Position Event) :
    Moves config samplers resets drops (floor net events [] none)
      (floor { net with sim := { net.sim with position } } events [] none) :=
  .single (.quiet net.nextId net.drawn (.refl _) (.inl ⟨rfl,rfl⟩))

private theorem moves_invoke {e : Event} {sim : Sim Event ℚ} (holds : Holds sim.diary events)
    (time : sim.vtime = e.invokeTime)
    (invoked : Network.invoke config samplers { net with sim } depth e.action = some next) :
    ∃ later, Holds next.sim.diary later ∧
      Moves config samplers resets drops (floor net (e :: events) [] none) (floor next later [] none) := by
  obtain ⟨id,invokeTime,action⟩ := e
  have taken : action ≠ .endOfWarmUp → (Event.mk id invokeTime action).service = none →
      Moves config samplers resets drops (floor net (⟨id,invokeTime,action⟩ :: events) [] none)
        (floor { net with sim } events [] none) := by
    intro _ other
    refine .single (.quiet net.nextId net.drawn ?_ (.inl ⟨rfl,rfl⟩))
    rw [services_other other]
  cases action with
  | arrival n =>
    obtain ⟨injected,injecting,scheduled⟩ := Option.bind_eq_some_iff.mp invoked
    obtain ⟨later,holds',moving⟩ := @moves_injectCustomers config samplers resets drops depth _ injected events n _
      (by exact holds) injecting
    obtain ⟨last,holds'',further⟩ := moves_scheduleArrival holds' scheduled
    exact ⟨last,holds'',.trans (taken (by simp) rfl) (.trans (moves_draw []) (.trans moving further))⟩
  | endService c n =>
    obtain ⟨later,holds',moving⟩ := @moves_forward config samplers resets drops depth _ next events n c _
      (by exact holds) rfl invoked
    refine ⟨later,holds',.trans (.single (.fire c n ?_)) moving⟩
    rw [services_endService]
    cases time
    exact .refl _
  | endOfWarmUp =>
    cases invoked
    refine ⟨events,holds,.single (.quiet net.nextId net.drawn ?_ (.inl ⟨rfl,rfl⟩))⟩
    rw [services_other rfl]

private theorem moves_iterate {stops stopsThen : Bool} (holds : Holds net.sim.diary events)
    (allowed : stopsThen = true → drops = true)
    (iterated : net.iterate config samplers depth stops stopsThen = some next) :
    ∃ later, Holds next.sim.diary later ∧
      Moves config samplers resets drops (floor net events [] none) (floor next later [] none) := by
  obtain ⟨sim,went,iterated⟩ := Option.bind_eq_some_iff.mp iterated
  unfold Sim.iterate at went
  by_cases ends : (net.sim.diary.isEmpty || stops) = true
  · rw [if_pos ends] at went
    cases went
    cases iterated
    exact ⟨events,holds,moves_position .outside⟩
  · rw [if_neg ends] at went
    have pending : events ≠ [] := by
      intro none
      exact ends (by rw [(holds_isEmpty holds).mpr none,Bool.true_or])
    obtain ⟨e,rest,rfl⟩ := List.exists_cons_of_ne_nil pending
    obtain ⟨diary,removed,holds'⟩ := holds_removeFromFront holds
    rw [removed,Option.map_some] at went
    cases went
    cases stopsThen with
    | true =>
      dsimp only [if_true] at iterated
      rw [removed] at iterated
      cases iterated
      obtain ⟨id,invokeTime,action⟩ := e
      refine ⟨rest,?_,?_⟩
      · cases action <;> exact holds'
      · cases action with
        | endService c n =>
          refine .single (.drop c n (allowed rfl) ?_)
          rw [services_endService]
        | arrival n | endOfWarmUp =>
          refine .single (.quiet net.nextId net.drawn ?_ (.inl ⟨rfl,rfl⟩))
          rw [services_other rfl]
    | false =>
      obtain ⟨invoked,invoking,rfl⟩ := Option.map_eq_some_iff.mp iterated
      obtain ⟨later,holds'',moving⟩ := moves_invoke (by exact holds') rfl invoking
      exact ⟨later,holds'',moving.trans (moves_position .looping)⟩

/-- Every step of the program is a sequence of moves. -/
theorem moves_of_step {s : Step} (allowed : s = .resetMeasures → resets = true)
    (stopping : ∀ stops, s = .iterate stops true → drops = true) (holds : Holds net.sim.diary events)
    (stepped : step config samplers depth net s = some next) :
    ∃ later, Holds next.sim.diary later ∧
      Moves config samplers resets drops (floor net events [] none) (floor next later [] none) := by
  cases s with
  | construct n =>
    rw [step] at stepped
    split at stepped
    · exact moves_scheduleArrival holds stepped
    · cases stepped
  | enter n type =>
    rw [step] at stepped
    split at stepped
    case isTrue allowed =>
      obtain ⟨later,holds',moving⟩ := @moves_enter config samplers resets drops depth _ next events n net.customerId none
        (by exact holds) stepped
      exact ⟨later,holds',.trans (.single (.build allowed.2)) moving⟩
    · cases stepped
  | releaseResource n =>
    dsimp only [step] at stepped
    split at stepped
    case isTrue allowed =>
      obtain ⟨-,isPool⟩ := allowed
      cases found : config[n]? with
      | none => simp [found] at isPool
      | some station =>
        simp only [found,Option.any_some,Bool.and_eq_true,Bool.not_eq_true'] at isPool
        obtain ⟨pool,kind⟩ := Option.isSome_iff_exists.mp isPool.1
        refine moves_releaseResource holds (poolOf_of_kind found kind) ?_ stepped
        rw [kindOf,found,Option.map_some,Option.any_some,isPool.2]
        rfl
    · cases stepped
  | simulate warmUp =>
    dsimp only [step] at stepped
    split at stepped
    · cases warmUp with
      | none =>
        cases stepped
        exact ⟨events,holds,moves_position .looping⟩
      | some t =>
        obtain ⟨planned,scheduled,rfl⟩ := Option.map_eq_some_iff.mp stepped
        obtain ⟨later,holds',moving⟩ := @moves_schedule config samplers resets drops net planned events none _ _ []
          holds rfl scheduled
        exact ⟨later,holds',moving.trans (moves_position .looping)⟩
    · cases stepped
  | iterate stops stopsThen =>
    rw [step] at stepped
    split at stepped
    · refine moves_iterate holds ?_ stepped
      rintro rfl
      exact stopping stops rfl
    · cases stepped
  | resetMeasures =>
    rw [step] at stepped
    split at stepped
    · cases stepped
      exact ⟨events,holds,.single (.reset (allowed rfl))⟩
    · cases stepped

theorem kept_of_moves {Inv : Floor → Prop} {before after : Floor}
    (kept : ∀ before after, Move config samplers resets drops before after → Inv before → Inv after)
    (moves : Moves config samplers resets drops before after) (inv : Inv before) : Inv after := by
  induction moves with
  | refl => exact inv
  | tail _ move ih => exact kept _ _ move ih

/-- What every move keeps is kept by every run. -/
theorem invariant_of_moves {Inv : Floor → Prop}
    (kept : ∀ before after, Move config samplers resets drops before after → Inv before → Inv after) {steps : List Step}
    (allowed : .resetMeasures ∈ steps → resets = true) (stopping : ∀ stops, .iterate stops true ∈ steps → drops = true)
    (holds : Holds net.sim.diary events) (start : Inv (floor net events [] none))
    (executed : Runs.run (step config samplers depth) net steps = some next) :
    ∃ later, Holds next.sim.diary later ∧ Inv (floor next later [] none) := by
  induction steps generalizing net events with
  | nil =>
    cases executed
    exact ⟨events,holds,start⟩
  | cons s rest ih =>
    obtain ⟨middle,stepped,remaining⟩ := (Runs.run_cons net s rest next).mp executed
    obtain ⟨later,holds',moving⟩ := moves_of_step (fun same => allowed (same ▸ List.mem_cons_self))
      (fun stops same => stopping stops (same ▸ List.mem_cons_self)) holds stepped
    exact ih (fun member => allowed (List.mem_cons_of_mem s member))
      (fun stops member => stopping stops (List.mem_cons_of_mem s member)) holds' (kept_of_moves kept moving start) remaining

end Refinement

end Vexjine.QueueingNetworks
