import Vexjine.EventSimulation
import Vexjine.PriorityQueues
import Vexjine.SystemMeasures

/-!
# Queueing networks

Sources put customers into a network, whose nodes serve them, let them queue for resources or send them on, until a
sink takes them. Everything that happens to a customer between two events of the simulator happens in one go: it
walks along links and loss nodes until it is served, queued or gone. Times, demands and measured values are exact,
and all samples are arbitrary.
-/

namespace Vexjine.QueueingNetworks
open Vexjine.Diary
open Vexjine.EventSimulation (Sim)
open Vexjine.PriorityQueues (INT_MAX)
open Vexjine.SystemMeasures (SystemMeasure)

/-! ## Measures, resources and queues -/

/-- With the two moments of the default constructor. -/
structure CustomerMeasure where
  n : ℕ := 0
  moment : ℕ → ℚ := fun _ => 0

namespace CustomerMeasure
variable (measure : CustomerMeasure)

def add (x : ℚ) : CustomerMeasure where
  n := measure.n + 1
  moment i := if 1 ≤ i ∧ i ≤ 2 then measure.moment i + x ^ i else measure.moment i

def resetMeasures : CustomerMeasure where
  n := 0
  moment i := if 1 ≤ i ∧ i ≤ 2 then 0 else measure.moment i

/-- A division by 0 gives no number. -/
def mean : Option ℚ := if measure.n = 0 then none else some (measure.moment 1 / measure.n)

end CustomerMeasure

structure Resource where
  resources : ℤ
  nresources : ℤ
  resourceCount : SystemMeasure := SystemMeasures.Construction.default.measure

namespace Resource
variable (resource : Resource) (now : ℚ)

def resourceIsAvailable : Bool := decide (0 < resource.resources)

/-- With another number of free resources. -/
def changed (resources : ℤ) : Resource :=
  { resource with resources,resourceCount := resource.resourceCount.add now (resource.nresources - resources) }

/-- A failed check aborts. -/
def claim : Option Resource :=
  if resource.resourceIsAvailable then some (resource.changed now (resource.resources - 1)) else none

def release : Option Resource :=
  if resource.resources < resource.nresources then some (resource.changed now (resource.resources + 1)) else none

def resetMeasures : Resource := { resource with resourceCount := resource.resourceCount.resetMeasures now }

end Resource

/-- Which place in the list a customer is inserted at; all are served from the front. -/
inductive Discipline
  | fifo
  | lifo
  | random
  | ordered
  deriving DecidableEq

/-- `insertIntoQueue` of the four subclasses, with the classes of the customers and `rand()/RAND_MAX`. An iterator
    that stands behind the last node cannot advance. -/
def Discipline.insertIntoQueue (type : ℕ → ℤ) (random : ℚ) (pop : ℤ) (c : ℕ) (contents : List ℕ) :
    Discipline → Option (List ℕ)
  | .fifo => some (contents ++ [c])
  | .lifo => some (c :: contents)
  | .random =>
    let index := ⌊random * (pop + 1)⌋.toNat
    if index ≤ contents.length then some (contents.take index ++ c :: contents.drop index) else none
  | .ordered =>
    let before (other : ℕ) : Bool := decide (type other ≤ type c)
    some (contents.takeWhile before ++ c :: contents.dropWhile before)

structure Queue where
  capacity : ℤ := INT_MAX
  pop : ℤ := 0
  contents : List ℕ := []
  queueingTime : CustomerMeasure := {}
  popMeasure : SystemMeasure := SystemMeasures.Construction.default.measure

namespace Queue
variable (queue : Queue) (now : ℚ)

def isEmpty : Bool := decide (queue.pop = 0)

def canAccept : Bool := decide (queue.pop < queue.capacity)

/-- With other customers. -/
def changed (contents : List ℕ) (pop : ℤ) : Queue :=
  { queue with contents,pop,popMeasure := queue.popMeasure.add now pop }

def enqueue (discipline : Discipline) (type : ℕ → ℤ) (random : ℚ) (c : ℕ) : Option Queue :=
  if queue.canAccept then
    (discipline.insertIntoQueue type random queue.pop c queue.contents).map fun contents =>
      queue.changed now contents (queue.pop + 1)
  else none

def dequeue (queueInsertionTime : ℕ → ℚ) : Option (ℕ × Queue) :=
  match queue.contents with
  | [] => none
  | c :: rest =>
    if 0 < queue.pop then some (c,{ queue.changed now rest (queue.pop - 1) with
      queueingTime := queue.queueingTime.add (now - queueInsertionTime c) })
    else none

def resetMeasures : Queue :=
  { queue with
    queueingTime := queue.queueingTime.resetMeasures
    popMeasure := queue.popMeasure.resetMeasures now }

end Queue

/-! ## Nodes and links -/

/-- What the constructor of a `ResourcePool` gets. Without a loss node its loss node is the null node. -/
structure Pool where
  noOfResources : ℤ
  capacity : ℤ := INT_MAX
  discipline : Discipline := .fifo
  lossNode : Option ℕ := none

inductive Kind
  /-- A plain `CinqsNode`. -/
  | node
  /-- A source has an inter-arrival time or schedules nothing. -/
  | source (delayed : Bool)
  | sink
  | infiniteServer
  | resourcePool (pool : Pool)
  | queueingNode (pool : Pool)

def Kind.pool : Kind → Option Pool
  | .resourcePool pool | .queueingNode pool => some pool
  | .node | .source _ | .sink | .infiniteServer => none

/-- Whether `enter` samples a service demand. -/
def Kind.serves : Kind → Bool
  | .infiniteServer | .resourcePool _ | .queueingNode _ => true
  | .node | .source _ | .sink => false

/-- Whether `forward` releases a resource. -/
def Kind.releases : Kind → Bool
  | .queueingNode _ => true
  | .node | .source _ | .sink | .infiniteServer | .resourcePool _ => false

inductive Link
  | link (n : ℕ)
  | probabilisticBranch (nodes : List ℕ)
  | classDependentBranch (classes : List (ℤ × ℕ))

/-- A node of the network, with its link. A node that has none keeps `Link::earth`, whose network is not set. -/
structure Station where
  kind : Kind
  link : Option Link

/-- What the samplers return; each is asked with the number of samples taken before. -/
structure Samplers where
  /-- The inter-arrival times of a source. -/
  delay : ℕ → ℕ → ℚ
  /-- The batch sizes of a source, as an `int`. -/
  batchsize : ℕ → ℕ → ℤ
  /-- The service times of a node for the customers of a class. -/
  serviceTime : ℕ → ℤ → ℕ → ℚ
  /-- The branch taken behind a node. -/
  branch : ℕ → ℕ → ℕ
  /-- `rand()/RAND_MAX` -/
  rand : ℕ → ℚ

/-- A customer. Its demand and its time of insertion are set before they are read. -/
structure Customer where
  type : ℤ := 0
  arrivalTime : ℚ := 0
  location : Option ℕ := none
  serviceDemand : ℚ := 0
  queueInsertionTime : ℚ := 0

structure Node where
  arrivals : ℕ := 0
  losses : ℕ := 0
  queue : Queue := {}
  resources : Resource := ⟨0,0,SystemMeasures.Construction.default.measure⟩

inductive Action
  | arrival (source : ℕ)
  | endService (customer node : ℕ)
  | endOfWarmUp
  deriving DecidableEq

structure Event where
  id : ℕ
  invokeTime : ℚ
  action : Action
  deriving DecidableEq

/-- What the statements are about and the code does not keep: the customers that are gone, by a sink, by the null node
    or with an event that was not invoked; since when a customer is served, and when a sink took it; how long it has
    waited in queues, and what it and a node have done of demands. -/
structure History where
  completed : List ℕ := []
  lost : List ℕ := []
  dropped : List ℕ := []
  started : ℕ → ℚ := fun _ => 0
  left : ℕ → ℚ := fun _ => 0
  waited : ℕ → ℚ := fun _ => 0
  served : ℕ → ℚ := fun _ => 0
  worked : ℕ → ℚ := fun _ => 0

/-- The network with its simulator and all customers that were ever built. -/
structure Network where
  sim : Sim Event ℚ
  customers : ℕ → Customer := fun _ => {}
  customerId : ℕ := 0
  nodes : ℕ → Node
  completions : ℕ := 0
  responseTime : CustomerMeasure := {}
  nextId : ℕ := 0
  drawn : ℕ := 0
  history : History := {}

def Station.build (station : Station) : Node :=
  match station.kind.pool with
  | none => {}
  | some pool => { queue := { capacity := pool.capacity },resources := ⟨pool.noOfResources,pool.noOfResources,
      SystemMeasures.Construction.default.measure⟩ }

/-- The time is 0 and the sources have scheduled nothing yet. -/
def Network.build (config : List Station) : Network where
  sim := { vtime := 0 }
  nodes n := (config[n]?).elim {} Station.build

/-! ## What is done with a customer -/

namespace Network
variable (config : List Station) (samplers : Samplers) (net : Network)

def now : ℚ := net.sim.vtime

def setNode (n : ℕ) (node : Node) : Network := { net with nodes := Function.update net.nodes n node }

def setCustomer (c : ℕ) (customer : Customer) : Network :=
  { net with customers := Function.update net.customers c customer }

@[simp] theorem nodes_setNode (n : ℕ) (node : Node) : (net.setNode n node).nodes = Function.update net.nodes n node := rfl

@[simp] theorem customers_setNode (n : ℕ) (node : Node) : (net.setNode n node).customers = net.customers := rfl

@[simp] theorem nodes_setCustomer (c : ℕ) (customer : Customer) : (net.setCustomer c customer).nodes = net.nodes := rfl

@[simp] theorem customers_setCustomer (c : ℕ) (customer : Customer) :
    (net.setCustomer c customer).customers = Function.update net.customers c customer := rfl

def draw : Network := { net with drawn := net.drawn + 1 }

@[simp] theorem nodes_draw : net.draw.nodes = net.nodes := rfl

@[simp] theorem customers_draw : net.draw.customers = net.customers := rfl

/-- The constructor of `Customer`. -/
def buildCustomer (type : ℤ) : Network :=
  { net.setCustomer net.customerId { type,arrivalTime := net.now } with customerId := net.customerId + 1 }

def setLocation (n c : ℕ) : Network := net.setCustomer c { net.customers c with location := some n }

/-- The first line of `InfiniteServerNode::enter`. -/
def sampleDemand (n c : ℕ) : Network :=
  (net.setCustomer c { net.customers c with
    serviceDemand := samplers.serviceTime n (net.customers c).type net.drawn }).draw

/-- `CinqsNode::enter`, up to `accept`. -/
def arrive (n c : ℕ) : Network :=
  (net.setNode n { net.nodes n with arrivals := (net.nodes n).arrivals + 1 }).setLocation n c

/-- `Sink::accept` -/
def complete (c : ℕ) : Network :=
  { net with
    completions := net.completions + 1
    responseTime := net.responseTime.add (net.now - (net.customers c).arrivalTime)
    history := { net.history with
      completed := net.history.completed ++ [c]
      left := Function.update net.history.left c net.now } }

def schedule (invokeTime : ℚ) (action : Action) : Option Network :=
  (net.sim.schedule Event.invokeTime ⟨net.nextId,invokeTime,action⟩).map fun sim =>
    { net with sim,nextId := net.nextId + 1 }

def start (c : ℕ) : Network :=
  { net with history := { net.history with started := Function.update net.history.started c net.now } }

def invokeService (n c : ℕ) : Option Network :=
  (net.start c).schedule (net.now + (net.customers c).serviceDemand) (.endService c n)

def claim (n : ℕ) : Option Network :=
  ((net.nodes n).resources.claim net.now).map fun resources => net.setNode n { net.nodes n with resources }

def release (n : ℕ) : Option Network :=
  ((net.nodes n).resources.release net.now).map fun resources => net.setNode n { net.nodes n with resources }

def enqueue (discipline : Discipline) (n c : ℕ) : Option Network :=
  ((net.nodes n).queue.enqueue net.now discipline (fun other => (net.customers other).type)
    (samplers.rand net.drawn) c).map fun queue =>
      ((net.setCustomer c { net.customers c with queueInsertionTime := net.now }).setNode n
        { net.nodes n with queue }).draw

def waits (c : ℕ) : Network :=
  { net with history := { net.history with
      waited := Function.update net.history.waited c
        (net.history.waited c + (net.now - (net.customers c).queueInsertionTime)) } }

def dequeue (n : ℕ) : Option (ℕ × Network) :=
  ((net.nodes n).queue.dequeue net.now fun c => (net.customers c).queueInsertionTime).map fun taken =>
    (taken.1,(net.setNode n { net.nodes n with queue := taken.2 }).waits taken.1)

def lose (n : ℕ) : Network := net.setNode n { net.nodes n with losses := (net.nodes n).losses + 1 }

/-- `NullNode::enter` -/
def absorb (c : ℕ) : Network := { net with history := { net.history with lost := net.history.lost ++ [c] } }

/-- The node that the link sends the customer to. The null node, which a class that is not found leads to, has no
    place in the network. -/
def move (n c : ℕ) : Option (ℕ × Network) :=
  match (config[n]?).bind Station.link with
  | none => none
  | some (.link target) => some (target,net)
  | some (.probabilisticBranch nodes) => (nodes[samplers.branch n net.drawn]?).map fun target => (target,net.draw)
  | some (.classDependentBranch classes) =>
    (classes.find? fun entry => decide (entry.1 = (net.customers c).type)).map fun entry => (entry.2,net)

/-- `ResourcePool::accept`, with the loss node that the customer is sent to. The trace about a lost customer, whose text
    begins as far into its literal as the id of the loss node says, is left out. -/
def acceptAtPool (pool : Pool) (n c : ℕ) : Option (Option ℕ × Network) :=
  if (net.nodes n).resources.resourceIsAvailable then
    ((net.claim n).bind fun claimed => claimed.invokeService n c).map (none,·)
  else if (net.nodes n).queue.canAccept then (net.enqueue samplers pool.discipline n c).map (none,·)
  else
    match pool.lossNode with
    | none => some (none,(net.lose n).absorb c)
    | some target => some (some target,net.lose n)

/-- A customer enters a node, up to where it enters another one. -/
def visit (n c : ℕ) : Option (Option ℕ × Network) :=
  (config[n]?).bind fun station =>
    let arrived := (if station.kind.serves then net.sampleDemand samplers n c else net).arrive n c
    match station.kind with
    | .node | .source _ => (arrived.move config samplers n c).map fun moved => (some moved.1,moved.2)
    | .sink => some (none,arrived.complete c)
    | .infiniteServer => (arrived.invokeService n c).map (none,·)
    | .resourcePool pool | .queueingNode pool => arrived.acceptAtPool samplers pool n c

/-- The calls of `enter` that are made within one another; a stack that is too small for them overflows. -/
def enter : ℕ → Network → ℕ → ℕ → Option Network
  | 0,_,_,_ => none
  | depth + 1,net,n,c => (net.visit config samplers n c).bind fun visited =>
    match visited.1 with
    | none => some visited.2
    | some target => enter depth visited.2 target c

variable (depth : ℕ)

/-- `CinqsNode::forward` -/
def send (n c : ℕ) : Option Network :=
  (net.move config samplers n c).bind fun moved => moved.2.enter config samplers depth moved.1 c

def releaseResource (n : ℕ) : Option Network :=
  if (net.nodes n).queue.isEmpty then net.release n
  else (net.dequeue n).bind fun taken => taken.2.invokeService n taken.1

def forward (n c : ℕ) : Option Network :=
  (net.send config samplers depth n c).bind fun sent =>
    if ((config[n]?).any fun station => station.kind.releases) then sent.releaseResource n else some sent

/-- `Source::injectCustomer` -/
def injectCustomer (n : ℕ) : Option Network :=
  ((net.buildCustomer 0).setLocation n net.customerId).send config samplers depth n net.customerId

def injectCustomers : ℕ → ℕ → Network → Option Network
  | 0,_,net => some net
  | count + 1,n,net => (net.injectCustomer config samplers depth n).bind fun next => injectCustomers count n next

/-- `Source::schedule` -/
def scheduleArrival (n : ℕ) : Option Network :=
  match config[n]? with
  | some ⟨.source true,_⟩ => net.draw.schedule (net.now + samplers.delay n net.drawn) (.arrival n)
  | some ⟨.source false,_⟩ => some net
  | _ => none

/-- The demand of a customer has been served. -/
def serves (n c : ℕ) : Network :=
  { net with history := { net.history with
      served := Function.update net.history.served c (net.history.served c + (net.customers c).serviceDemand)
      worked := Function.update net.history.worked n (net.history.worked n + (net.customers c).serviceDemand) } }

/-- `Sim::resetMeasures`, which the end of the warm-up calls, is not virtual and only prints a warning. -/
def invoke : Action → Option Network
  | .arrival n =>
    (net.draw.injectCustomers config samplers depth (samplers.batchsize n net.drawn).toNat n).bind fun injected =>
      injected.scheduleArrival config samplers n
  | .endService c n => (net.serves n c).forward config samplers depth n c
  | .endOfWarmUp => some net

/-- The customer of an event that is deleted without being invoked is gone. -/
def drop : Action → Network
  | .endService c _ => { net with history := { net.history with dropped := net.history.dropped ++ [c] } }
  | .arrival _ | .endOfWarmUp => net

/-- `Network::resetMeasures`; only pools have measures of their own. -/
def resetMeasures : Network :=
  { net with nodes := fun n =>
      if ((config[n]?).bind fun station => station.kind.pool).isSome then
        { net.nodes n with
          queue := (net.nodes n).queue.resetMeasures net.now
          resources := (net.nodes n).resources.resetMeasures net.now }
      else net.nodes n }

end Network

/-! ## Runs -/

inductive Step
  /-- The constructor of a source schedules its first arrival. -/
  | construct (n : ℕ)
  /-- Other code builds a customer of a class and lets it enter a node. -/
  | enter (n : ℕ) (type : ℤ)
  /-- Other code releases a resource of a pool. -/
  | releaseResource (n : ℕ)
  /-- `simulate`, with the length of the warm-up if there is one. -/
  | simulate (warmUp : Option ℚ)
  /-- One round of the loop, with the answers of `stop`. -/
  | iterate (stops stopsThen : Bool)
  | resetMeasures
  deriving DecidableEq

def maxClasses : ℤ := 100

variable (config : List Station) (samplers : Samplers) (depth : ℕ)

/-- One round of the loop in `Sim::go`. -/
def Network.iterate (net : Network) (stops stopsThen : Bool) : Option Network :=
  (net.sim.iterate Event.invokeTime stops stopsThen).bind fun sim =>
    match sim.position with
    | .outside => some { net with sim }
    | .looping => (net.sim.diary.removeFromFront).map fun taken => { net with sim }.drop taken.1.action
    | .invoking e => (({ net with sim } : Network).invoke config samplers depth e.action).map fun next =>
      { next with sim := { next.sim with position := .looping } }

/-- Other code runs between the calls of `simulate`. -/
def step (net : Network) : Step → Option Network
  | .construct n => if net.sim.position = .outside then net.scheduleArrival config samplers n else none
  | .enter n type =>
    if net.sim.position = .outside ∧ 0 ≤ type ∧ type ≤ maxClasses then
      (net.buildCustomer type).enter config samplers depth n net.customerId
    else none
  | .releaseResource n =>
    if net.sim.position = .outside ∧ (config[n]?).any fun station => station.kind.pool.isSome && !station.kind.releases
    then net.releaseResource n else none
  | .simulate warmUp =>
    if net.sim.position = .outside then
      match warmUp with
      | none => some { net with sim := { net.sim with position := .looping } }
      | some t => (net.schedule (net.now + t) .endOfWarmUp).map fun next =>
        { next with sim := { next.sim with position := .looping } }
    else none
  | .iterate stops stopsThen =>
    if net.sim.position = .looping then net.iterate config samplers depth stops stopsThen else none
  | .resetMeasures => if net.sim.position = .outside then some (net.resetMeasures config) else none

end Vexjine.QueueingNetworks
