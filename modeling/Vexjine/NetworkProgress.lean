import Vexjine.PoolMeasures

/-!
# No step of a network fails

Where every link leads to nodes of the network and no customer can be passed on in a circle, no check fails, no queue
is asked for a customer it does not have, no index is outside its array and the stack is deep enough.
-/

namespace Vexjine.QueueingNetworks
open Vexjine.Diary
open Vexjine.EventSimulation (Sim holds_schedule)
open Vexjine.Runs

/-- The nodes that a link leads to. -/
def Link.targets : Link → List ℕ
  | .link target => [target]
  | .probabilisticBranch nodes => nodes
  | .classDependentBranch classes => classes.map Prod.snd

/-- The branch that is drawn exists, and every class of customers has a branch. -/
def Link.Complete (samplers : Samplers) (n : ℕ) : Link → Prop
  | .link _ => True
  | .probabilisticBranch nodes => ∀ count, samplers.branch n count < nodes.length
  | .classDependentBranch classes => ∀ type, 0 ≤ type → type ≤ maxClasses → ∃ entry ∈ classes, entry.1 = type

/-- The nodes that a customer who enters this one may enter at once. -/
def Station.passes (station : Station) : List ℕ :=
  match station.kind with
  | .node | .source _ => station.link.elim [] Link.targets
  | .resourcePool pool | .queueingNode pool => pool.lossNode.toList
  | .sink | .infiniteServer => []

/-- The links are set up within the network, and customers are passed on to nodes of lower rank. -/
structure WellFormed (config : List Station) (samplers : Samplers) (depth : ℕ) (rank : ℕ → ℕ) : Prop where
  linked : ∀ (n : ℕ) (station : Station), config[n]? = some station → station.kind ≠ .sink →
    ∃ link, station.link = some link ∧ link.Complete samplers n ∧ ∀ target ∈ link.targets, target < config.length
  lost : ∀ (n : ℕ) (station : Station) (pool : Pool) (target : ℕ), config[n]? = some station → station.kind.pool = some pool →
    pool.lossNode = some target → target < config.length
  ranked : ∀ (n : ℕ) (station : Station), config[n]? = some station → ∀ target ∈ station.passes, rank target < rank n
  deep : ∀ n, n < config.length → rank n < depth
  rand : ∀ count, 0 ≤ samplers.rand count ∧ samplers.rand count < 1

/-- The event is one of a source that has an inter-arrival time, or of a node that serves. -/
def Event.Legit (config : List Station) (e : Event) : Prop :=
  match e.action with
  | .arrival n => ∃ link, config[n]? = some ⟨.source true,link⟩
  | .endService _ n => ∃ station, config[n]? = some station ∧ station.kind.serves = true
  | .endOfWarmUp => True

/-- The diary has only such events, and the customers' classes are within their bounds. -/
structure Prepared (config : List Station) (net : Network) (events : List Event) : Prop where
  holds : Holds net.sim.diary events
  legit : ∀ e ∈ events, e.Legit config
  types : ∀ c, 0 ≤ (net.customers c).type ∧ (net.customers c).type ≤ maxClasses

section Progress
variable {config : List Station} {samplers : Samplers} {depth : ℕ} {rank : ℕ → ℕ} {net next : Network}
  {events : List Event} {n c : ℕ} {r : Option ℕ}

/-- Changes of the network that concern neither the diary nor the classes. -/
private theorem Prepared.same (prepared : Prepared config net events) (diary : next.sim.diary = net.sim.diary)
    (types : ∀ c, (next.customers c).type = (net.customers c).type) : Prepared config next events where
  holds := diary ▸ prepared.holds
  legit := prepared.legit
  types c := by
    rw [types]
    exact prepared.types c

private theorem type_setCustomer {customer : Customer} (same : customer.type = (net.customers c).type) (other : ℕ) :
    ((net.setCustomer c customer).customers other).type = (net.customers other).type := by
  rw [Network.customers_setCustomer]
  by_cases mine : other = c
  · subst mine
    rw [Function.update_self,same]
  · rw [Function.update_of_ne mine]

private theorem returns_schedule (prepared : Prepared config net events) {time : ℚ} {action : Action}
    (legit : (Event.mk net.nextId time action).Legit config) :
    ∃ next later, net.schedule time action = some next ∧ Prepared config next later := by
  obtain ⟨diary,later,scheduled,holds,arranged⟩ := schedule_holds prepared.holds time action
  refine ⟨net.scheduled diary,later,scheduled,holds,?_,prepared.types⟩
  intro e member
  rcases List.mem_cons.mp (arranged.subset member) with rfl | old
  · exact legit
  · exact prepared.legit e old

private theorem returns_invokeService (prepared : Prepared config net events) {station : Station}
    (found : config[n]? = some station) (serves : station.kind.serves = true) (c : ℕ) :
    ∃ next later, net.invokeService n c = some next ∧ Prepared config next later := by
  have begun : Prepared config (net.start c) events := prepared.same rfl fun _ => rfl
  exact returns_schedule begun ⟨station,found,serves⟩

private theorem returns_move (wf : WellFormed config samplers depth rank) (prepared : Prepared config net events)
    {station : Station} (found : config[n]? = some station)
    (forwards : station.kind ≠ .sink) (c : ℕ) :
    ∃ target next, net.move config samplers n c = some (target,next) ∧ Prepared config next events ∧
      target < config.length ∧ target ∈ station.link.elim [] Link.targets := by
  obtain ⟨link,linked,complete,targets⟩ := wf.linked n station found forwards
  unfold Network.move
  rw [found,Option.bind_some,linked]
  cases link with
  | link target => exact ⟨target,net,rfl,prepared,targets target (by simp [Link.targets]),by simp [Link.targets]⟩
  | probabilisticBranch nodes =>
    have within := complete net.drawn
    refine ⟨nodes[samplers.branch n net.drawn],net.draw,?_,prepared.same rfl fun _ => rfl,?_,?_⟩
    · show Option.map _ nodes[samplers.branch n net.drawn]? = _
      rw [List.getElem?_eq_getElem within]
      rfl
    · exact targets _ (List.getElem_mem within)
    · exact List.getElem_mem within
  | classDependentBranch classes =>
    obtain ⟨low,high⟩ := prepared.types c
    obtain ⟨entry,member,same⟩ := complete _ low high
    have some : (classes.find? fun entry => decide (entry.1 = (net.customers c).type)).isSome = true := by
      rw [List.find?_isSome]
      exact ⟨entry,member,decide_eq_true same⟩
    obtain ⟨branch,chosen⟩ := Option.isSome_iff_exists.mp some
    have listed : branch.2 ∈ classes.map Prod.snd := List.mem_map_of_mem (List.mem_of_find?_eq_some chosen)
    refine ⟨branch.2,net,?_,prepared,targets _ listed,listed⟩
    show Option.map _ (classes.find? fun entry => decide (entry.1 = (net.customers c).type)) = _
    rw [chosen]
    rfl

/-- An accepted customer finds its place in the queue. -/
private theorem returns_enqueue (wf : WellFormed config samplers depth rank) (prepared : Prepared config net events)
    (room : (net.nodes n).queue.canAccept = true) (pop : (net.nodes n).queue.pop = (net.nodes n).queue.contents.length)
    (discipline : Discipline) (c : ℕ) :
    ∃ next, net.enqueue samplers discipline n c = some next ∧ Prepared config next events := by
  have placed : ∃ contents, discipline.insertIntoQueue (fun other => (net.customers other).type) (samplers.rand net.drawn)
      (net.nodes n).queue.pop c (net.nodes n).queue.contents = some contents := by
    cases discipline with
    | fifo | lifo | ordered => exact ⟨_,rfl⟩
    | random =>
      obtain ⟨low,high⟩ := wf.rand net.drawn
      unfold Discipline.insertIntoQueue
      dsimp only
      rw [if_pos]
      · exact ⟨_,rfl⟩
      · have positive : (0 : ℚ) < (net.nodes n).queue.contents.length + 1 := by positivity
        have below : samplers.rand net.drawn * ((net.nodes n).queue.pop + 1) < (net.nodes n).queue.contents.length + 1 := by
          rw [pop]
          push_cast
          nlinarith
        have floor : ⌊samplers.rand net.drawn * ((net.nodes n).queue.pop + 1)⌋ < (net.nodes n).queue.contents.length + 1 :=
          Int.floor_lt.mpr (by exact_mod_cast below)
        omega
  obtain ⟨contents,inserted⟩ := placed
  have queued : (net.nodes n).queue.enqueue net.now discipline (fun other => (net.customers other).type)
      (samplers.rand net.drawn) c = some ((net.nodes n).queue.changed net.now contents ((net.nodes n).queue.pop + 1)) := by
    rw [Queue.enqueue,if_pos room,inserted,Option.map_some]
  refine ⟨((net.setCustomer c { net.customers c with queueInsertionTime := net.now }).setNode n { net.nodes n with
    queue := (net.nodes n).queue.changed net.now contents ((net.nodes n).queue.pop + 1) }).draw,?_,?_⟩
  · rw [Network.enqueue,queued,Option.map_some]
  · exact prepared.same rfl (type_setCustomer rfl)

private theorem returns_acceptAtPool (wf : WellFormed config samplers depth rank) (prepared : Prepared config net events)
    {station : Station} {pool : Pool} (found : config[n]? = some station) (kind : station.kind.pool = some pool)
    (pop : (net.nodes n).queue.pop = (net.nodes n).queue.contents.length) (c : ℕ) :
    ∃ target next later, net.acceptAtPool samplers pool n c = some (target,next) ∧ Prepared config next later ∧
      (target = none ∨ target = pool.lossNode) := by
  have serves : station.kind.serves = true := by
    cases decided : station.kind <;> simp_all [Kind.pool,Kind.serves]
  unfold Network.acceptAtPool
  by_cases available : (net.nodes n).resources.resourceIsAvailable = true
  · rw [if_pos available]
    have claimed : Prepared config (net.setNode n { net.nodes n with
        resources := (net.nodes n).resources.changed net.now ((net.nodes n).resources.resources - 1) }) events :=
      prepared.same rfl fun _ => rfl
    obtain ⟨next,later,served,prepared'⟩ := returns_invokeService claimed found serves c
    refine ⟨none,next,later,?_,prepared',.inl rfl⟩
    rw [Network.claim,Resource.claim,if_pos available,Option.map_some,Option.bind_some,served,Option.map_some]
  · rw [if_neg available]
    by_cases room : (net.nodes n).queue.canAccept = true
    · rw [if_pos room]
      obtain ⟨next,enqueued,prepared'⟩ := returns_enqueue wf prepared room pop pool.discipline c
      refine ⟨none,next,events,?_,prepared',.inl rfl⟩
      rw [enqueued]
      rfl
    · rw [if_neg room]
      cases alone : pool.lossNode with
      | none => exact ⟨none,_,events,rfl,prepared.same rfl fun _ => rfl,.inl rfl⟩
      | some target => exact ⟨some target,_,events,rfl,prepared.same rfl fun _ => rfl,.inr rfl⟩

private theorem returns_visit (wf : WellFormed config samplers depth rank) (prepared : Prepared config net events)
    (kept : Kept config (floor net events [c] r)) (within : n < config.length) :
    ∃ target next later, net.visit config samplers n c = some (target,next) ∧ Prepared config next later ∧
      ∀ m, target = some m → m < config.length ∧ rank m < rank n := by
  have found : config[n]? = some config[n] := List.getElem?_eq_getElem within
  have lower := wf.ranked n config[n] found
  generalize config[n] = station at found lower
  unfold Network.visit
  rw [found,Option.bind_some]
  dsimp only
  have arrived : Prepared config ((if station.kind.serves then net.sampleDemand samplers n c else net).arrive n c) events := by
    cases station.kind.serves with
    | false => exact prepared.same rfl (type_setCustomer rfl)
    | true =>
      have sampled : Prepared config (net.sampleDemand samplers n c) events := prepared.same rfl (type_setCustomer rfl)
      exact sampled.same rfl (type_setCustomer rfl)
  have pop : ∀ pool, station.kind.pool = some pool →
      (((if station.kind.serves then net.sampleDemand samplers n c else net).arrive n c).nodes n).queue.pop =
        (((if station.kind.serves then net.sampleDemand samplers n c else net).arrive n c).nodes n).queue.contents.length := by
    intro pool kind
    have moved := @moves_arrive config samplers true true net events n c r station
    have kept' := kept_of_moves (fun _ _ => kept_of_move) moved.2 kept
    exact (kept'.staffed n pool (poolOf_of_kind found kind)).lined.pop
  generalize (if station.kind.serves then net.sampleDemand samplers n c else net).arrive n c = here at arrived pop ⊢
  cases decided : station.kind with
  | node | source delayed =>
    obtain ⟨target,next,moved,prepared',inside,listed⟩ := returns_move wf arrived found (by rw [decided]; exact nofun) c
    refine ⟨some target,next,events,?_,prepared',?_⟩
    · dsimp only
      rw [moved,Option.map_some]
    · intro m same
      cases same
      exact ⟨inside,lower target (by simpa [Station.passes,decided] using listed)⟩
  | sink => exact ⟨none,here.complete c,events,rfl,arrived.same rfl fun _ => rfl,nofun⟩
  | infiniteServer =>
    obtain ⟨next,later,served,prepared'⟩ := returns_invokeService arrived found (by rw [decided]; rfl) c
    refine ⟨none,next,later,?_,prepared',nofun⟩
    dsimp only
    rw [served,Option.map_some]
  | resourcePool pool | queueingNode pool =>
    obtain ⟨target,next,later,accepted,prepared',onward⟩ := returns_acceptAtPool wf arrived found
      (by rw [decided]; rfl) (pop pool (by rw [decided]; rfl)) c
    refine ⟨target,next,later,accepted,prepared',?_⟩
    intro m same
    rcases onward with nowhere | lost
    · rw [nowhere] at same
      cases same
    · rw [lost] at same
      exact ⟨wf.lost n station pool m found (by rw [decided]; rfl) same,
        lower m (by simp [Station.passes,decided,same])⟩

/-- A customer comes to rest before the stack overflows. -/
private theorem returns_enter (wf : WellFormed config samplers depth rank) {count : ℕ} (prepared : Prepared config net events)
    (kept : Kept config (floor net events [c] r)) (within : n < config.length) (enough : rank n < count) :
    ∃ next later, net.enter config samplers count n c = some next ∧ Prepared config next later := by
  induction count generalizing net events n with
  | zero => omega
  | succ count ih =>
    obtain ⟨target,visited,later,visiting,prepared',lower⟩ := returns_visit wf prepared kept within
    rw [Network.enter,visiting,Option.bind_some]
    cases target with
    | none => exact ⟨visited,later,rfl,prepared'⟩
    | some m =>
      obtain ⟨inside,less⟩ := lower m rfl
      obtain ⟨events',holds,moved⟩ := @moves_visit config samplers true true net visited events n c r (some m) prepared.holds visiting
      have kept' := kept_of_moves (fun _ _ => kept_of_move) moved kept
      have same : events' = later := (contents_eq holds).symm.trans (contents_eq prepared'.holds)
      rw [same] at kept'
      exact ih prepared' kept' inside (by omega)

private theorem returns_send (wf : WellFormed config samplers depth rank) (prepared : Prepared config net events)
    (kept : Kept config (floor net events [c] r)) {station : Station} (found : config[n]? = some station)
    (forwards : station.kind ≠ .sink) :
    ∃ next later, net.send config samplers depth n c = some next ∧ Prepared config next later := by
  obtain ⟨target,moved,moving,prepared',inside,-⟩ := returns_move wf prepared found forwards c
  have kept' := kept_of_moves (fun _ _ => kept_of_move)
    (@moves_move config samplers true true net moved events n c r [c] target moving).2 kept
  obtain ⟨next,later,entered,prepared''⟩ := returns_enter wf prepared' kept' inside (wf.deep target inside)
  refine ⟨next,later,?_,prepared''⟩
  rw [Network.send,moving,Option.bind_some,entered]

/-- A resource that is in use can be released. -/
private theorem returns_releaseResource (prepared : Prepared config net events) {station : Station} {pool : Pool}
    (found : config[n]? = some station) (kind : station.kind.pool = some pool)
    (pop : (net.nodes n).queue.pop = (net.nodes n).queue.contents.length)
    (claimed : (net.nodes n).queue.contents ≠ [] ∨ (net.nodes n).resources.resources < (net.nodes n).resources.nresources) :
    ∃ next later, net.releaseResource n = some next ∧ Prepared config next later := by
  have serves : station.kind.serves = true := by
    cases decided : station.kind <;> simp_all [Kind.pool,Kind.serves]
  unfold Network.releaseResource
  cases contents : (net.nodes n).queue.contents with
  | nil =>
    have empty : (net.nodes n).queue.isEmpty = true := by
      rw [contents] at pop
      exact decide_eq_true pop
    have busy := claimed.resolve_left (· contents)
    refine ⟨net.setNode n { net.nodes n with
        resources := (net.nodes n).resources.changed net.now ((net.nodes n).resources.resources + 1) },events,?_,
      prepared.same rfl fun _ => rfl⟩
    rw [if_pos empty,Network.release,Resource.release,if_pos busy,Option.map_some]
  | cons c rest =>
    rw [contents,List.length_cons] at pop
    have someone : ¬(net.nodes n).queue.isEmpty = true := by
      unfold Queue.isEmpty
      rw [decide_eq_true_eq]
      omega
    have taken : (net.nodes n).queue.dequeue net.now (fun c => (net.customers c).queueInsertionTime) =
        some (c,{ (net.nodes n).queue.changed net.now rest ((net.nodes n).queue.pop - 1) with
          queueingTime := (net.nodes n).queue.queueingTime.add (net.now - (net.customers c).queueInsertionTime) }) := by
      unfold Queue.dequeue
      rw [contents]
      dsimp only
      rw [if_pos (by omega)]
    have dequeued : Prepared config ((net.setNode n { net.nodes n with
        queue := { (net.nodes n).queue.changed net.now rest ((net.nodes n).queue.pop - 1) with
          queueingTime := (net.nodes n).queue.queueingTime.add (net.now - (net.customers c).queueInsertionTime) } }).waits
            c) events := prepared.same rfl fun _ => rfl
    rw [if_neg someone,Network.dequeue,taken,Option.map_some,Option.bind_some]
    exact returns_invokeService dequeued found serves c

private theorem returns_forward (wf : WellFormed config samplers depth rank) (prepared : Prepared config net events)
    (kept : Kept config (floor net events [c] (if (kindOf config n).any Kind.releases then some n else none)))
    {station : Station} (found : config[n]? = some station) (serves : station.kind.serves = true) :
    ∃ next later, net.forward config samplers depth n c = some next ∧ Prepared config next later := by
  have kind : kindOf config n = some station.kind := by rw [kindOf,found,Option.map_some]
  obtain ⟨sent,later,sending,prepared'⟩ := returns_send wf prepared kept found (by
    intro sink
    rw [sink] at serves
    cases serves)
  rw [Network.forward,sending,Option.bind_some,any_kindOf]
  by_cases releases : ((kindOf config n).any Kind.releases) = true
  · rw [if_pos releases] at kept ⊢
    obtain ⟨events',holds,moved⟩ := @moves_send config samplers true true depth net sent events n c (some n) prepared.holds sending
    have same : events' = later := (contents_eq holds).symm.trans (contents_eq prepared'.holds)
    rw [same] at moved
    have kept' := kept_of_moves (fun _ _ => kept_of_move) moved kept
    rw [kind,Option.any_some] at releases
    have isPool : ∃ pool, station.kind.pool = some pool := by
      cases decided : station.kind <;> simp_all [Kind.releases,Kind.pool]
    obtain ⟨pool,isPool⟩ := isPool
    obtain ⟨lined,manned,-,-⟩ := kept'.staffed n pool (poolOf_of_kind found isPool)
    have staff := manned (by rw [releasesAt,kind,Option.any_some,releases])
    refine returns_releaseResource prepared' found isPool lined.pop (.inr ?_)
    -- the resource of the customer that has left is still in use
    have used := staff.used
    have total := staff.nresources
    unfold Floor.view Floor.starts at used total
    dsimp only at used total
    rw [if_pos rfl,List.length_append,List.length_singleton] at used
    omega
  · rw [if_neg releases]
    exact ⟨sent,later,rfl,prepared'⟩

private theorem Prepared.build (prepared : Prepared config net events) {type : ℤ} (typed : 0 ≤ type ∧ type ≤ maxClasses) :
    Prepared config (net.buildCustomer type) events where
  holds := prepared.holds
  legit := prepared.legit
  types c := by
    show 0 ≤ (Function.update net.customers net.customerId _ c).type ∧
      (Function.update net.customers net.customerId _ c).type ≤ maxClasses
    by_cases mine : c = net.customerId
    · subst mine
      rw [Function.update_self]
      exact typed
    · rw [Function.update_of_ne mine]
      exact prepared.types c

private theorem returns_injectCustomer (wf : WellFormed config samplers depth rank) (prepared : Prepared config net events)
    (kept : Kept config (floor net events [] none)) {delayed : Bool} {link : Option Link}
    (found : config[n]? = some ⟨.source delayed,link⟩) :
    ∃ next later, net.injectCustomer config samplers depth n = some next ∧ Prepared config next later := by
  have built : Prepared config (net.buildCustomer 0) events := prepared.build (by decide)
  have located : Prepared config ((net.buildCustomer 0).setLocation n net.customerId) events :=
    built.same rfl (type_setCustomer rfl)
  have moved : Moves config samplers true true (floor net events [] none)
      (floor ((net.buildCustomer 0).setLocation n net.customerId) events [net.customerId] none) :=
    .trans (.single (.build (by decide))) (.single (.locate n net.customerId))
  exact returns_send wf located (kept_of_moves (fun _ _ => kept_of_move) moved kept) found nofun

private theorem returns_injectCustomers (wf : WellFormed config samplers depth rank) {count : ℕ}
    (prepared : Prepared config net events) (kept : Kept config (floor net events [] none)) {delayed : Bool}
    {link : Option Link} (found : config[n]? = some ⟨.source delayed,link⟩) :
    ∃ next later, Network.injectCustomers config samplers depth count n net = some next ∧ Prepared config next later := by
  induction count generalizing net events with
  | zero => exact ⟨net,events,rfl,prepared⟩
  | succ count ih =>
    obtain ⟨one,later,injected,prepared'⟩ := returns_injectCustomer wf prepared kept found
    obtain ⟨events',holds,moved⟩ := @moves_injectCustomer config samplers true true depth net one events n prepared.holds injected
    have same : events' = later := (contents_eq holds).symm.trans (contents_eq prepared'.holds)
    rw [same] at moved
    rw [Network.injectCustomers,injected,Option.bind_some]
    exact ih prepared' (kept_of_moves (fun _ _ => kept_of_move) moved kept)

private theorem returns_scheduleArrival (samplers : Samplers) (prepared : Prepared config net events) {delayed : Bool}
    {link : Option Link} (found : config[n]? = some ⟨.source delayed,link⟩) :
    ∃ next later, net.scheduleArrival config samplers n = some next ∧ Prepared config next later := by
  unfold Network.scheduleArrival
  rw [found]
  cases delayed with
  | true =>
    have drawn : Prepared config net.draw events := prepared.same rfl fun _ => rfl
    exact returns_schedule drawn ⟨link,found⟩
  | false => exact ⟨net,events,rfl,prepared⟩

private theorem Prepared.rest {e : Event} {rest : List Event} {diary : LinkedList Event} {sim : Sim Event ℚ}
    (prepared : Prepared config net (e :: rest)) (holds : Holds diary rest) (same : sim.diary = diary) :
    Prepared config { net with sim } rest where
  holds := same ▸ holds
  legit other member := prepared.legit other (List.mem_cons_of_mem e member)
  types := prepared.types

private theorem returns_invoke (wf : WellFormed config samplers depth rank) {e : Event} {sim : Sim Event ℚ}
    (prepared : Prepared config { net with sim } events) (legit : e.Legit config)
    (kept : Kept config (floor net (e :: events) [] none)) (time : sim.vtime = e.invokeTime) :
    ∃ next later, Network.invoke config samplers { net with sim } depth e.action = some next ∧
      Prepared config next later := by
  obtain ⟨id,invokeTime,action⟩ := e
  cases action with
  | arrival n =>
    obtain ⟨link,found⟩ := legit
    have drawn : Prepared config ({ net with sim } : Network).draw events := prepared.same rfl fun _ => rfl
    have moved : Moves config samplers true true (floor net (⟨id,invokeTime,.arrival n⟩ :: events) [] none)
        (floor ({ net with sim } : Network).draw events [] none) := by
      refine .single (.quiet net.nextId (net.drawn + 1) ?_ (.inl ⟨rfl,rfl⟩))
      rw [services_other rfl]
    have kept' := kept_of_moves (fun _ _ => kept_of_move) moved kept
    obtain ⟨injected,later,injecting,prepared'⟩ := @returns_injectCustomers config samplers depth rank
      ({ net with sim } : Network).draw events n wf (samplers.batchsize n net.drawn).toNat drawn kept' true link found
    obtain ⟨next,last,scheduled,prepared''⟩ := returns_scheduleArrival samplers prepared' found
    refine ⟨next,last,?_,prepared''⟩
    show (Network.injectCustomers config samplers depth (samplers.batchsize n net.drawn).toNat n _).bind _ = _
    rw [injecting,Option.bind_some,scheduled]
  | endService c n =>
    obtain ⟨station,found,serves⟩ := legit
    have moved : Moves config samplers true true (floor net (⟨id,invokeTime,.endService c n⟩ :: events) [] none)
        (floor ((net.quiet sim net.nextId net.drawn).serves n c) events [c]
          (if (kindOf config n).any Kind.releases then some n else none)) := by
      refine .single (.fire c n ?_)
      rw [services_endService]
      cases time
      exact .refl _
    have fired : Prepared config ((net.quiet sim net.nextId net.drawn).serves n c) events := prepared.same rfl fun _ => rfl
    exact returns_forward wf fired (kept_of_moves (fun _ _ => kept_of_move) moved kept) found serves
  | endOfWarmUp => exact ⟨_,events,rfl,prepared⟩

private theorem returns_iterate (wf : WellFormed config samplers depth rank) (prepared : Prepared config net events)
    (kept : Kept config (floor net events [] none)) (stops stopsThen : Bool) :
    ∃ next later, net.iterate config samplers depth stops stopsThen = some next ∧ Prepared config next later := by
  unfold Network.iterate Sim.iterate
  by_cases ends : (net.sim.diary.isEmpty || stops) = true
  · rw [if_pos ends]
    exact ⟨_,events,rfl,prepared.same rfl fun _ => rfl⟩
  · rw [if_neg ends]
    have pending : events ≠ [] := by
      intro none
      exact ends (by rw [(holds_isEmpty prepared.holds).mpr none,Bool.true_or])
    obtain ⟨e,rest,rfl⟩ := List.exists_cons_of_ne_nil pending
    obtain ⟨diary,removed,holds⟩ := holds_removeFromFront prepared.holds
    rw [removed,Option.map_some,Option.bind_some]
    cases stopsThen with
    | true =>
      have taken := @Prepared.rest config net e rest diary ⟨diary,e.invokeTime,.looping⟩ prepared holds rfl
      refine ⟨({ net with sim := ⟨diary,e.invokeTime,.looping⟩ } : Network).drop e.action,rest,rfl,?_⟩
      cases e.action <;> exact taken.same rfl fun _ => rfl
    | false =>
      have taken := @Prepared.rest config net e rest diary ⟨diary,e.invokeTime,.invoking e⟩ prepared holds rfl
      obtain ⟨next,later,invoked,prepared'⟩ := returns_invoke wf taken (prepared.legit e List.mem_cons_self) kept rfl
      refine ⟨{ next with sim := { next.sim with position := .looping } },later,?_,prepared'.same rfl fun _ => rfl⟩
      show Option.map _ (Network.invoke config samplers { net with sim := ⟨diary,e.invokeTime,.invoking e⟩ } depth
        e.action) = _
      rw [invoked,Option.map_some]

/-- Where the program is when it takes a step, and what the code that calls it passes to it. A resource is released
    only while one is in use. -/
def Turn (config : List Station) (net : Network) : Step → Prop
  | .construct n => net.sim.position = .outside ∧ ∃ delayed link, config[n]? = some ⟨.source delayed,link⟩
  | .enter n type => net.sim.position = .outside ∧ n < config.length ∧ 0 ≤ type ∧ type ≤ maxClasses
  | .releaseResource n => net.sim.position = .outside ∧ ∃ station pool, config[n]? = some station ∧
      station.kind = .resourcePool pool ∧
      ((net.nodes n).queue.contents ≠ [] ∨ (net.nodes n).resources.resources < (net.nodes n).resources.nresources)
  | .simulate _ | .resetMeasures => net.sim.position = .outside
  | .iterate .. => net.sim.position = .looping

private theorem returns_step (wf : WellFormed config samplers depth rank) (prepared : Prepared config net events)
    (kept : Kept config (floor net events [] none)) {s : Step} (turn : Turn config net s) :
    ∃ next later, step config samplers depth net s = some next ∧ Prepared config next later := by
  cases s with
  | construct n =>
    obtain ⟨outside,delayed,link,found⟩ := turn
    obtain ⟨next,later,scheduled,prepared'⟩ := returns_scheduleArrival samplers prepared found
    refine ⟨next,later,?_,prepared'⟩
    rw [step,if_pos outside,scheduled]
  | enter n type =>
    obtain ⟨outside,within,typed⟩ := turn
    have built := prepared.build typed
    have kept' : Kept config (floor (net.buildCustomer type) events [net.customerId] none) :=
      kept_of_move (@Move.build config samplers true true net (services events) none type typed) kept
    obtain ⟨next,later,entered,prepared'⟩ := returns_enter wf built kept' within (wf.deep n within)
    refine ⟨next,later,?_,prepared'⟩
    rw [step,if_pos ⟨outside,typed⟩,entered]
  | releaseResource n =>
    obtain ⟨outside,station,pool,found,kind,claimed⟩ := turn
    have isPool : station.kind.pool = some pool := by
      rw [kind]
      rfl
    obtain ⟨next,later,released,prepared'⟩ := returns_releaseResource prepared found isPool
      (kept.staffed n pool (poolOf_of_kind found isPool)).lined.pop claimed
    refine ⟨next,later,?_,prepared'⟩
    have listed : ((config[n]?).any fun station => station.kind.pool.isSome && !station.kind.releases) = true := by
      rw [found,Option.any_some,kind]
      rfl
    rw [step,if_pos ⟨outside,listed⟩,released]
  | simulate warmUp =>
    have outside : net.sim.position = .outside := turn
    dsimp only [step]
    rw [if_pos outside]
    cases warmUp with
    | none => exact ⟨_,events,rfl,prepared.same rfl fun _ => rfl⟩
    | some t =>
      obtain ⟨next,later,scheduled,prepared'⟩ := @returns_schedule config net events prepared (net.now + t) .endOfWarmUp trivial
      refine ⟨{ next with sim := { next.sim with position := .looping } },later,?_,prepared'.same rfl fun _ => rfl⟩
      dsimp only
      rw [scheduled,Option.map_some]
  | iterate stops stopsThen =>
    have looping : net.sim.position = .looping := turn
    rw [step,if_pos looping]
    exact returns_iterate wf prepared kept stops stopsThen
  | resetMeasures =>
    have outside : net.sim.position = .outside := turn
    rw [step,if_pos outside]
    exact ⟨_,events,rfl,prepared.same rfl fun _ => rfl⟩

/-- A step that is taken is taken in turn. -/
private theorem turn_of_step (kept : Kept config (floor net events [] none)) {s : Step}
    (stepped : step config samplers depth net s = some next) : Turn config net s := by
  cases s with
  | construct n =>
    rw [step] at stepped
    split at stepped
    case isTrue outside =>
      unfold Network.scheduleArrival at stepped
      split at stepped
      case h_1 link found => exact ⟨outside,true,link,found⟩
      case h_2 link found => exact ⟨outside,false,link,found⟩
      case h_3 => cases stepped
    case isFalse => cases stepped
  | enter n type =>
    rw [step] at stepped
    split at stepped
    case isTrue allowed =>
      refine ⟨allowed.1,?_,allowed.2⟩
      cases depth with
      | zero => cases stepped
      | succ depth =>
        obtain ⟨visited,visiting,-⟩ := Option.bind_eq_some_iff.mp stepped
        obtain ⟨station,found,-⟩ := Option.bind_eq_some_iff.mp visiting
        exact (List.getElem?_eq_some_iff.mp found).1
    case isFalse => cases stepped
  | releaseResource n =>
    rw [step] at stepped
    split at stepped
    case isTrue allowed =>
      obtain ⟨outside,listed⟩ := allowed
      cases found : config[n]? with
      | none => simp [found] at listed
      | some station =>
        have isPool : ∃ pool, station.kind = .resourcePool pool := by
          rw [found,Option.any_some] at listed
          cases decided : station.kind <;> simp_all [Kind.pool,Kind.releases]
        obtain ⟨pool,kind⟩ := isPool
        refine ⟨outside,station,pool,found,kind,?_⟩
        have pop : (net.nodes n).queue.pop = (net.nodes n).queue.contents.length :=
          (kept.staffed n pool (poolOf_of_kind found (by rw [kind]; rfl))).lined.pop
        unfold Network.releaseResource at stepped
        by_cases empty : (net.nodes n).queue.isEmpty = true
        · rw [if_pos empty] at stepped
          obtain ⟨resources,released,-⟩ := Option.map_eq_some_iff.mp stepped
          unfold Resource.release at released
          split at released
          case isTrue busy => exact .inr busy
          case isFalse => cases released
        · left
          intro none
          refine empty (decide_eq_true ?_)
          rw [pop,none]
          rfl
    case isFalse => cases stepped
  | simulate | iterate | resetMeasures =>
    dsimp only [step] at stepped
    split at stepped
    case isTrue here => exact here
    case isFalse => cases stepped

private theorem prepared_of_run (wf : WellFormed config samplers depth rank) {steps : List Step}
    (executed : run (step config samplers depth) net steps = some next) (prepared : Prepared config net events)
    (kept : Kept config (floor net events [] none)) :
    ∃ later, Prepared config next later ∧ Kept config (floor next later [] none) := by
  induction steps generalizing net events with
  | nil =>
    cases executed
    exact ⟨events,prepared,kept⟩
  | cons s rest ih =>
    obtain ⟨middle,stepped,remaining⟩ := (run_cons net s rest next).mp executed
    obtain ⟨returned,later,same,prepared'⟩ := returns_step wf prepared kept (turn_of_step kept stepped)
    cases same.symm.trans stepped
    obtain ⟨events',holds,moved⟩ := @moves_of_step config samplers true true depth net middle events s (fun _ => rfl)
      (fun _ _ => rfl) prepared.holds stepped
    cases (contents_eq holds).symm.trans (contents_eq prepared'.holds)
    exact ih remaining prepared' (kept_of_moves (fun _ _ => kept_of_move) moved kept)

/-- In every state of a run a step can be taken if and only if it is taken in turn: no check fails, no class is without
    a branch, and every customer comes to rest before the stack overflows. -/
theorem never_stuck (wf : WellFormed config samplers depth rank) {steps : List Step}
    (executed : run (step config samplers depth) (.build config) steps = some net) (s : Step) :
    (∃ next, step config samplers depth net s = some next) ↔ Turn config net s := by
  have prepared : Prepared config (.build config) [] := by
    refine ⟨holds_empty,nofun,?_⟩
    intro c
    exact ⟨le_rfl,(by decide : (0 : ℤ) ≤ maxClasses)⟩
  obtain ⟨events,prepared',kept⟩ := prepared_of_run wf executed prepared kept_start_pools
  constructor
  · rintro ⟨next,stepped⟩
    exact turn_of_step kept stepped
  · intro turn
    obtain ⟨next,later,stepped,-⟩ := returns_step wf prepared' kept turn
    exact ⟨next,stepped⟩

/-- The source passes its customers on to the desk. -/
theorem wellFormed_desk : WellFormed desk daily 2 fun n => if n = 0 then 1 else 0 where
  linked n station found forwards := by
    match n with
    | 0 =>
      cases found
      exact ⟨.link 1,rfl,trivial,by decide⟩
    | 1 =>
      cases found
      exact ⟨.link 2,rfl,trivial,by decide⟩
    | 2 =>
      cases found
      exact absurd rfl forwards
  lost n station pool target found kind passed := by
    match n with
    | 0 | 2 =>
      cases found
      cases kind
    | 1 =>
      cases found
      cases kind
      cases passed
  ranked n station found target listed := by
    match n with
    | 0 =>
      cases found
      obtain rfl : target = 1 := List.mem_singleton.mp listed
      decide
    | 1 | 2 =>
      cases found
      cases listed
  deep := by decide
  rand _ := ⟨le_rfl,one_pos⟩

theorem never_stuck_desk : ∃ net next, run (step desk daily 2) (.build desk) morning = some net ∧
    step desk daily 2 net (.iterate false false) = some next := by
  obtain ⟨net,executed,checked⟩ := @exists_of_checked _ _ (step desk daily 2)
    (fun net => decide (net.sim.position = .looping)) (.build desk) morning (by decide +kernel)
  have looping : net.sim.position = .looping := of_decide_eq_true checked
  obtain ⟨next,stepped⟩ := (never_stuck wellFormed_desk executed (.iterate false false)).mpr looping
  exact ⟨net,next,executed,stepped⟩

end Progress

end Vexjine.QueueingNetworks
