import Vexjine.Runs

/-!
# A queueing node under several schedulers

The schedulers simulate the customers of a network: a scheduler takes a customer from the
runnable queue, enters it into its location again and again while it stays active, and
pushes it back. A customer that finds no resource at the node waits in the node's queue,
inactive, until a scheduler that releases a resource hands it over and pushes it into the
runnable queue. Locks of the customers have no effect. The customer's next action is set
only after the node's mutex is free again, and a full queue leaves the mutex locked.
-/

namespace Vexjine.QueueingNode
open Vexjine.Runs
set_option linter.unusedSectionVars false

/-- The node of a customer, seen from one queueing node of the network. -/
inductive Location where
  | elsewhere | node | postQueueingAction | postServiceAction
  deriving DecidableEq

/-- What a scheduler does next with its customer: `accepting` and `releasing` follow the lock of
    the node's mutex, `queued` precedes the setting of the next action, `returned` the test of the
    simulation loop and `simulated` the test after the loop. -/
inductive Position (Customer : Type*) where
  | idle
  | outside (c : Customer)
  | accept (c : Customer)
  | accepting (c : Customer)
  | queued (c : Customer)
  | invokeService (c : Customer)
  | releaseResourceAt (c : Customer)
  | releasing (c : Customer)
  | forward (c : Customer)
  | returned (c : Customer)
  | simulated (c : Customer)
  deriving DecidableEq

def Position.customer {Customer : Type*} : Position Customer → Option Customer
  | .idle => none
  | .outside c | .accept c | .accepting c | .queued c | .invokeService c | .releaseResourceAt c
  | .releasing c | .forward c | .returned c | .simulated c => some c

/-- The node's methods between the lock and the unlock of its mutex. -/
def Position.inNode {Customer : Type*} : Position Customer → Bool
  | .accepting _ | .releasing _ => true
  | _ => false

variable {Scheduler Customer : Type*} [DecidableEq Scheduler] [DecidableEq Customer]

/-- The node with the customers and schedulers around it. `lossLocation` is where the loss node leaves
    a customer: the null node, which every node starts with, does not move it. The last four lists
    record, in order, which customers the node accepted, which began and which completed a service, and
    which hold a resource. -/
structure VexQueueingNode (Scheduler Customer : Type*) where
  nresources : Nat
  capacity : Nat
  lossLocation : Location := .node
  resources : Nat
  queue : List Customer := []
  mutex : Option Scheduler := none
  losses : Nat := 0
  location : Customer → Location := fun _ => .elsewhere
  active : Customer → Bool := fun _ => false
  simulating : Customer → Bool := fun _ => false
  runnableThreads : List Customer := []
  position : Scheduler → Position Customer := fun _ => .idle
  accepted : List Customer := []
  started : List Customer := []
  completed : List Customer := []
  serving : List Customer := []

/-- A node with all its resources free and no customer in the network. -/
def start (nresources capacity : Nat) (lossLocation : Location) : VexQueueingNode Scheduler Customer :=
  { nresources,capacity,lossLocation,resources := nresources }

/-- Where the other nodes of the network leave a customer. -/
inductive Next where
  | node | elsewhere | finished
  deriving DecidableEq

inductive Event (Scheduler Customer : Type*) where
  | simulate (c : Customer)
  | take (s : Scheduler) (c : Customer)
  | outside (s : Scheduler) (next : Next)
  | lock (s : Scheduler)
  | accept (s : Scheduler)
  | setLocation (s : Scheduler)
  | invokeService (s : Scheduler)
  | releaseResource (s : Scheduler)
  | forward (s : Scheduler) (toNode : Bool)
  | loop (s : Scheduler) (again : Bool)
  | push (s : Scheduler)
  deriving DecidableEq

namespace VexQueueingNode
variable (state : VexQueueingNode Scheduler Customer)

def move (s : Scheduler) (position : Position Customer) : VexQueueingNode Scheduler Customer :=
  { state with position := Function.update state.position s position }

def setLocation (c : Customer) (location : Location) : VexQueueingNode Scheduler Customer :=
  { state with location := Function.update state.location c location }

def setActive (c : Customer) (active : Bool) : VexQueueingNode Scheduler Customer :=
  { state with active := Function.update state.active c active }

/-- `ModelHandler::resumeModelSimulation`: the location decides what the customer enters. -/
def enter (s : Scheduler) (c : Customer) : VexQueueingNode Scheduler Customer :=
  match state.location c with
  | .elsewhere => state.move s (.outside c)
  | .node => state.move s (.accept c)
  | .postQueueingAction => state.move s (.invokeService c)
  | .postServiceAction => state.move s (.releaseResourceAt c)

/-- A thread begins its model; it is pushed into the runnable queue. -/
def simulate (c : Customer) : Option (VexQueueingNode Scheduler Customer) :=
  if state.simulating c then none
  else some
    { (state.setActive c true).setLocation c .elsewhere with
      simulating := Function.update state.simulating c true
      runnableThreads := state.runnableThreads ++ [c] }

/-- A scheduler pops a customer and resumes its simulation. -/
def take (s : Scheduler) (c : Customer) : Option (VexQueueingNode Scheduler Customer) :=
  if state.position s = .idle ∧ c ∈ state.runnableThreads then
    some ({ state with runnableThreads := state.runnableThreads.erase c }.enter s c)
  else none

/-- The rest of the network. A customer that another node blocks counts as finished until that node
    resumes it. -/
def outside (s : Scheduler) (next : Next) : Option (VexQueueingNode Scheduler Customer) :=
  match state.position s,next with
  | .outside c,.node => some ((state.setLocation c .node).move s (.returned c))
  | .outside c,.elsewhere => some (state.move s (.returned c))
  | .outside c,.finished =>
    some { state.move s .idle with simulating := Function.update state.simulating c false }
  | _,_ => none

/-- `lock`, at the beginning of `accept` and of `releaseResourceAt`. -/
def lock (s : Scheduler) : Option (VexQueueingNode Scheduler Customer) :=
  if state.mutex = none then
    match state.position s with
    | .accept c => some { state.move s (.accepting c) with mutex := some s }
    | .releaseResourceAt c => some { state.move s (.releasing c) with mutex := some s }
    | _ => none
  else none

/-- The body of `accept` up to its unlock. The customer sent to the loss node leaves the mutex
    locked. -/
def acceptCustomer (s : Scheduler) (c : Customer) : VexQueueingNode Scheduler Customer :=
  if 0 < state.resources then
    { state.move s (.invokeService c) with
      resources := state.resources - 1
      mutex := none
      accepted := state.accepted ++ [c]
      started := state.started ++ [c]
      serving := state.serving ++ [c] }
  else if state.queue.length < state.capacity then
    { (state.setActive c false).move s (.queued c) with
      queue := state.queue ++ [c]
      mutex := none
      accepted := state.accepted ++ [c] }
  else { (state.setLocation c state.lossLocation).move s (.returned c) with losses := state.losses + 1 }

def accept (s : Scheduler) : Option (VexQueueingNode Scheduler Customer) :=
  match state.position s with
  | .accepting c => some (state.acceptCustomer s c)
  | _ => none

/-- The end of `accept` for a customer in the queue. -/
def setNextAction (s : Scheduler) : Option (VexQueueingNode Scheduler Customer) :=
  match state.position s with
  | .queued c => some ((state.setLocation c .postQueueingAction).move s (.returned c))
  | _ => none

/-- `waitRemote` never completes the service by itself. -/
def invokeService (s : Scheduler) : Option (VexQueueingNode Scheduler Customer) :=
  match state.position s with
  | .invokeService c => some ((state.setLocation c .postServiceAction).move s (.returned c))
  | _ => none

/-- `resume`: the customer is active and in the runnable queue again. -/
def resume (c : Customer) : VexQueueingNode Scheduler Customer :=
  { state.setActive c true with runnableThreads := state.runnableThreads ++ [c] }

/-- The body of `releaseResourceAt`: the resource goes to the next customer in the queue. -/
def releaseFor (s : Scheduler) (c : Customer) : VexQueueingNode Scheduler Customer :=
  match state.queue with
  | [] =>
    { state.move s (.forward c) with
      resources := state.resources + 1
      mutex := none
      completed := state.completed ++ [c]
      serving := state.serving.erase c }
  | head :: rest =>
    { (state.resume head).move s (.forward c) with
      queue := rest
      mutex := none
      started := state.started ++ [head]
      completed := state.completed ++ [c]
      serving := state.serving.erase c ++ [head] }

def releaseResource (s : Scheduler) : Option (VexQueueingNode Scheduler Customer) :=
  match state.position s with
  | .releasing c => some (state.releaseFor s c)
  | _ => none

/-- The node's link leads to the node again or to another one. -/
def forward (s : Scheduler) (toNode : Bool) : Option (VexQueueingNode Scheduler Customer) :=
  match state.position s with
  | .forward c =>
    some ((state.setLocation c (if toNode then .node else .elsewhere)).move s (.returned c))
  | _ => none

/-- The simulation loop continues only with an active customer; it also ends with the timeslot. -/
def loop (s : Scheduler) (again : Bool) : Option (VexQueueingNode Scheduler Customer) :=
  match state.position s with
  | .returned c =>
    if again then if state.active c then some (state.enter s c) else none
    else some (state.move s (.simulated c))
  | _ => none

/-- The test after the loop: a customer that waits in a queue is not pushed back. -/
def push (s : Scheduler) : Option (VexQueueingNode Scheduler Customer) :=
  match state.position s with
  | .simulated c =>
    if state.active c then
      some { state.move s .idle with runnableThreads := state.runnableThreads ++ [c] }
    else some (state.move s .idle)
  | _ => none

def step : Event Scheduler Customer → Option (VexQueueingNode Scheduler Customer)
  | .simulate c => state.simulate c
  | .take s c => state.take s c
  | .outside s next => state.outside s next
  | .lock s => state.lock s
  | .accept s => state.accept s
  | .setLocation s => state.setNextAction s
  | .invokeService s => state.invokeService s
  | .releaseResource s => state.releaseResource s
  | .forward s toNode => state.forward s toNode
  | .loop s again => state.loop s again
  | .push s => state.push s

end VexQueueingNode

/-! ## The node's law -/

namespace VexQueueingNode
variable (state : VexQueueingNode Scheduler Customer)

/-- The customer holds a resource: its service is about to begin, it was handed a resource, or it has
    not released its own yet. -/
def InService (c : Customer) : Prop :=
  (∃ s, state.position s = .invokeService c) ∨
    (state.active c = true ∧
      (state.location c = .postQueueingAction ∨ state.location c = .postServiceAction) ∧
      ∀ s, state.position s ≠ .forward c)

/-- The claimed resources are those of the customers in service; customers queue only while all
    resources are claimed; services begin in the order of acceptance, one for each acceptance; no
    customer leaves the queue before its next action is set, and one scheduler at a time simulates a
    customer; the mutex is free outside the node's methods. -/
structure Lawful : Prop where
  claimed : state.resources + state.serving.length = state.nresources
  distinct : state.serving.Nodup
  inService : ∀ c, c ∈ state.serving ↔ state.InService c
  contended : state.queue ≠ [] → state.resources = 0
  bounded : state.queue.length ≤ state.capacity
  firstCome : state.accepted = state.started ++ state.queue
  once : ∀ c, state.started.count c = state.completed.count c + state.serving.count c
  notLost : ∀ c, state.simulating c = true →
    c ∈ state.runnableThreads ∨ c ∈ state.queue ∨ ∃ s, (state.position s).customer = some c
  nextAction : ∀ s c, state.position s = .queued c → c ∈ state.queue
  single : ∀ s s' c, (state.position s).customer = some c → (state.position s').customer = some c → s = s'
  alone : ∀ s c, (state.position s).customer = some c → c ∉ state.runnableThreads
  free : ∀ s, state.mutex = some s ↔ (state.position s).inNode = true

/-- An arriving customer finds a resource or room in the queue, and the scheduler that queued the
    customer which is handed a resource has left it. -/
def Fits : Event Scheduler Customer → Prop
  | .accept _ => 0 < state.resources ∨ state.queue.length < state.capacity
  | .releaseResource _ => ∀ head ∈ state.queue.head?, ∀ s, (state.position s).customer ≠ some head
  | _ => True

end VexQueueingNode

/-! ## The stages of a customer -/

private inductive Stage (Scheduler : Type*) where
  | away | runnable | waiting
  | at (s : Scheduler)

/-- A customer holds one resource while its next node is one of the two post action nodes. -/
private def held : Location → Nat
  | .elsewhere | .node => 0
  | .postQueueingAction | .postServiceAction => 1

/-- What a scheduler's position says about its customer's location, activity and how often it
    occurs in the queue and among the customers in service. -/
private def Located (location : Location) (active : Bool) (queue serving : Nat) :
    Position Customer → Prop
  | .idle => False
  | .outside _ => location = .elsewhere ∧ active = true ∧ queue = 0 ∧ serving = 0
  | .accept _ | .accepting _ => location = .node ∧ active = true ∧ queue = 0 ∧ serving = 0
  | .queued _ => location = .node ∧ active = false ∧ queue = 1 ∧ serving = 0
  | .invokeService _ => active = true ∧ queue = 0 ∧ serving = 1
  | .releaseResourceAt _ | .releasing _ =>
    location = .postServiceAction ∧ active = true ∧ queue = 0 ∧ serving = 1
  | .forward _ => location = .postServiceAction ∧ active = true ∧ queue = 0 ∧ serving = 0
  | .returned _ | .simulated _ => active = true ∧ queue = 0 ∧ serving = held location ∨
    active = false ∧ location = .postQueueingAction ∧ queue = 1 ∧ serving = 0

private def At (state : VexQueueingNode Scheduler Customer) (c : Customer) : Stage Scheduler → Prop
  | .away => state.simulating c = false ∧ (∀ s, (state.position s).customer ≠ some c) ∧
      state.location c = .elsewhere ∧ state.runnableThreads.count c = 0 ∧ state.queue.count c = 0 ∧
      state.serving.count c = 0
  | .runnable => state.simulating c = true ∧ (∀ s, (state.position s).customer ≠ some c) ∧
      state.active c = true ∧ state.runnableThreads.count c = 1 ∧ state.queue.count c = 0 ∧
      state.serving.count c = held (state.location c)
  | .waiting => state.simulating c = true ∧ (∀ s, (state.position s).customer ≠ some c) ∧
      state.active c = false ∧ state.location c = .postQueueingAction ∧
      state.runnableThreads.count c = 0 ∧ state.queue.count c = 1 ∧ state.serving.count c = 0
  | .at s => state.simulating c = true ∧ (∀ s', (state.position s').customer = some c ↔ s' = s) ∧
      state.runnableThreads.count c = 0 ∧
      Located (state.location c) (state.active c) (state.queue.count c) (state.serving.count c)
        (state.position s)

private def Staged (state : VexQueueingNode Scheduler Customer) : Prop :=
  ∀ c, ∃ stage, At state c stage

/-- Two states agree on a customer. -/
private structure Agree (state next : VexQueueingNode Scheduler Customer) (c : Customer) : Prop where
  simulating : next.simulating c = state.simulating c
  location : next.location c = state.location c
  active : next.active c = state.active c
  runnable : next.runnableThreads.count c = state.runnableThreads.count c
  queue : next.queue.count c = state.queue.count c
  serving : next.serving.count c = state.serving.count c
  position : ∀ s position, position.customer = some c → (next.position s = position ↔ state.position s = position)

section Stages
variable {state next : VexQueueingNode Scheduler Customer} {c : Customer}

private theorem works_agree (agree : Agree state next c) (s : Scheduler) :
    (next.position s).customer = some c ↔ (state.position s).customer = some c := by
  constructor
  · intro works
    rw [(agree.position s _ works).mp rfl]
    exact works
  · intro works
    rw [(agree.position s _ works).mpr rfl]
    exact works

private theorem at_agree (agree : Agree state next c) {stage : Stage Scheduler}
    (staged : At state c stage) : At next c stage := by
  have works := works_agree agree
  cases stage with
  | «at» s =>
    obtain ⟨on,only,absent,located⟩ := staged
    have kept : next.position s = state.position s := (agree.position s _ ((only s).mpr rfl)).mpr rfl
    refine ⟨agree.simulating.trans on,fun s' => (works s').trans (only s'),agree.runnable.trans absent,?_⟩
    rw [agree.location,agree.active,agree.queue,agree.serving,kept]
    exact located
  | _ =>
    simpa only [At,agree.simulating,agree.location,agree.active,agree.runnable,agree.queue,agree.serving,
      ne_eq,works] using staged

private theorem staged_of_agree (c : Customer) (staged : Staged state) (own : ∃ stage, At next c stage)
    (others : ∀ d, d ≠ c → Agree state next d) : Staged next := by
  intro d
  by_cases same : d = c
  · exact same ▸ own
  · obtain ⟨stage,found⟩ := staged d
    exact ⟨stage,at_agree (others d same) found⟩

/-- A customer a scheduler works on is at that scheduler. -/
private theorem at_of_works (staged : Staged state) {s : Scheduler}
    (works : (state.position s).customer = some c) : At state c (.at s) := by
  obtain ⟨stage,found⟩ := staged c
  cases stage with
  | «at» s' =>
    rw [(found.2.1 s).mp works]
    exact found
  | _ => exact absurd works (found.2.1 s)

private theorem runnable_of_mem (staged : Staged state) (ready : c ∈ state.runnableThreads) :
    At state c .runnable := by
  have counted : 0 < state.runnableThreads.count c := List.count_pos_iff.mpr ready
  obtain ⟨stage,found⟩ := staged c
  cases stage with
  | away => exact absurd found.2.2.2.1 (by omega)
  | runnable => exact found
  | waiting => exact absurd found.2.2.2.2.1 (by omega)
  | «at» s => exact absurd found.2.2.1 (by omega)

private theorem away_of_not_simulating (staged : Staged state) (absent : state.simulating c = false) :
    At state c .away := by
  obtain ⟨stage,found⟩ := staged c
  cases stage with
  | away => exact found
  | _ => exact absurd found.1 (by simp [absent])

/-- A queued customer waits, or the scheduler that queued it still works on it. -/
private theorem waiting_of_mem (staged : Staged state) (queued : c ∈ state.queue)
    (left : ∀ s, (state.position s).customer ≠ some c) : At state c .waiting := by
  have counted : 0 < state.queue.count c := List.count_pos_iff.mpr queued
  obtain ⟨stage,found⟩ := staged c
  cases stage with
  | away => exact absurd found.2.2.2.2.1 (by omega)
  | runnable => exact absurd found.2.2.2.2.1 (by omega)
  | waiting => exact found
  | «at» s => exact absurd ((found.2.1 s).mpr rfl) (left s)

end Stages

section Moves
variable {state next : VexQueueingNode Scheduler Customer} {s : Scheduler} {c : Customer}
  {position : Position Customer}

private theorem position_moved (moved : next.position = Function.update state.position s position)
    (left : (state.position s).customer ≠ some c) (right : position.customer ≠ some c) (s' : Scheduler)
    (other : Position Customer) (works : other.customer = some c) :
    next.position s' = other ↔ state.position s' = other := by
  rw [moved]
  by_cases same : s' = s
  · subst same
    rw [Function.update_self]
    constructor
    · rintro rfl
      exact absurd works right
    · rintro rfl
      exact absurd works left
  · rw [Function.update_of_ne same]

/-- A step of a scheduler that keeps its customer. -/
private theorem staged_moved (staged : Staged state) (works : (state.position s).customer = some c)
    (keeps : position.customer = some c) (moved : next.position = Function.update state.position s position)
    (simulating : next.simulating = state.simulating)
    (runnable : next.runnableThreads = state.runnableThreads)
    (location : ∀ d, d ≠ c → next.location d = state.location d)
    (active : ∀ d, d ≠ c → next.active d = state.active d)
    (queue : ∀ d, d ≠ c → next.queue.count d = state.queue.count d)
    (serving : ∀ d, d ≠ c → next.serving.count d = state.serving.count d)
    (located : Located (next.location c) (next.active c) (next.queue.count c) (next.serving.count c) position) :
    Staged next := by
  obtain ⟨on,only,absent,-⟩ := at_of_works staged works
  refine staged_of_agree c staged ⟨.at s,?_⟩ ?_
  · refine ⟨by rw [simulating,on],fun s' => ?_,by rw [runnable,absent],?_⟩
    · rw [moved]
      by_cases same : s' = s
      · subst same
        rw [Function.update_self]
        simp [keeps]
      · rw [Function.update_of_ne same]
        exact only s'
    · rw [moved,Function.update_self]
      exact located
  · intro d differs
    refine ⟨by rw [simulating],location d differs,active d differs,by rw [runnable],queue d differs,
      serving d differs,position_moved moved ?_ ?_⟩
    · rw [works]
      exact fun same => differs (Option.some.inj same).symm
    · rw [keeps]
      exact fun same => differs (Option.some.inj same).symm

/-- The position of a scheduler that enters the customer into its location. -/
private def entered (c : Customer) : Location → Position Customer
  | .elsewhere => .outside c
  | .node => .accept c
  | .postQueueingAction => .invokeService c
  | .postServiceAction => .releaseResourceAt c

private theorem enter_eq (state : VexQueueingNode Scheduler Customer) (s : Scheduler) (c : Customer) :
    state.enter s c = state.move s (entered c (state.location c)) := by
  unfold VexQueueingNode.enter entered
  split <;> rfl

private theorem entered_customer (c : Customer) (location : Location) :
    (entered c location).customer = some c := by
  cases location <;> rfl

private theorem entered_inNode (c : Customer) (location : Location) :
    (entered c location).inNode = false := by
  cases location <;> rfl

private theorem located_entered (c : Customer) (location : Location) :
    Located location true 0 (held location) (entered c location) := by
  cases location <;> simp [entered,Located,held]

end Moves

/-! ## Every step keeps the node's invariant -/

private structure Inv (state : VexQueueingNode Scheduler Customer) : Prop where
  staged : Staged state
  claimed : state.resources + state.serving.length = state.nresources
  contended : state.queue ≠ [] → state.resources = 0
  bounded : state.queue.length ≤ state.capacity
  firstCome : state.accepted = state.started ++ state.queue
  once : ∀ c, state.started.count c = state.completed.count c + state.serving.count c
  free : ∀ s, state.mutex = some s ↔ (state.position s).inNode = true

section Steps
variable {state next : VexQueueingNode Scheduler Customer} {s : Scheduler} {c : Customer}

private theorem free_moved {position : Position Customer} (inv : Inv state)
    (outside : (state.position s).inNode = false) (leaves : position.inNode = false) (s' : Scheduler) :
    state.mutex = some s' ↔ (Function.update state.position s position s').inNode = true := by
  rw [inv.free s']
  by_cases same : s' = s
  · subst same
    rw [Function.update_self,outside,leaves]
  · rw [Function.update_of_ne same]

/-- The scheduler in the node's methods leaves them. -/
private theorem free_unlocked {position : Position Customer} (inv : Inv state)
    (inside : (state.position s).inNode = true) (leaves : position.inNode = false) (s' : Scheduler) :
    (none : Option Scheduler) = some s' ↔ (Function.update state.position s position s').inNode = true := by
  have holder : state.mutex = some s := (inv.free s).mpr inside
  by_cases same : s' = s
  · subst same
    simp [leaves]
  · rw [Function.update_of_ne same,← inv.free s',holder]
    simp [Ne.symm same]

private theorem inv_simulate (inv : Inv state) (stepped : state.simulate c = some next) : Inv next := by
  simp only [VexQueueingNode.simulate,Option.ite_none_left_eq_some,Option.some.injEq] at stepped
  obtain ⟨idle,rfl⟩ := stepped
  obtain ⟨-,alone,-,unready,unqueued,unserved⟩ := away_of_not_simulating inv.staged (by simpa using idle)
  refine { inv with staged := staged_of_agree c inv.staged ⟨.runnable,?_⟩ ?_ }
  · refine ⟨Function.update_self ..,alone,Function.update_self ..,?_,unqueued,?_⟩
    · simp [unready]
    · simp [VexQueueingNode.setLocation,VexQueueingNode.setActive,held,unserved]
  · intro d differs
    constructor <;> simp [VexQueueingNode.setLocation,VexQueueingNode.setActive,differs,Ne.symm differs]

private theorem inv_take (inv : Inv state) (stepped : state.take s c = some next) : Inv next := by
  simp only [VexQueueingNode.take,Option.ite_none_right_eq_some,Option.some.injEq] at stepped
  obtain ⟨⟨idle,ready⟩,rfl⟩ := stepped
  rw [enter_eq]
  obtain ⟨on,alone,active,once,unqueued,served⟩ := runnable_of_mem inv.staged ready
  have customer := entered_customer c (state.location c)
  refine { inv with staged := staged_of_agree c inv.staged ⟨.at s,?_⟩ ?_,free := ?_ }
  · refine ⟨on,fun s' => ?_,?_,?_⟩
    · by_cases same : s' = s
      · subst same
        simp [VexQueueingNode.move,customer]
      · simp [VexQueueingNode.move,same,alone s']
    · simp [VexQueueingNode.move,once]
    · simpa [VexQueueingNode.move,active,unqueued,served] using located_entered c (state.location c)
  · intro d differs
    refine ⟨rfl,rfl,rfl,List.count_erase_of_ne differs,rfl,rfl,?_⟩
    refine position_moved rfl ?_ ?_
    · rw [idle]
      exact nofun
    · rw [customer]
      exact fun same => differs (Option.some.inj same).symm
  · exact free_moved inv (by rw [idle]; rfl) (entered_inNode c _)

/-- A scheduler goes on with its customer, outside the node's methods. -/
private theorem inv_moved {position : Position Customer} (inv : Inv state)
    (works : (state.position s).customer = some c) (keeps : position.customer = some c)
    (outside : (state.position s).inNode = false) (leaves : position.inNode = false)
    (located : Located (state.location c) (state.active c) (state.queue.count c) (state.serving.count c) position) :
    Inv (state.move s position) := by
  refine { inv with staged := staged_moved inv.staged works keeps rfl rfl rfl ?_ ?_ ?_ ?_ located,free := ?_ }
  · exact fun d differs => rfl
  · exact fun d differs => rfl
  · exact fun d differs => rfl
  · exact fun d differs => rfl
  · exact free_moved inv outside leaves

/-- The same with a new location of the customer. -/
private theorem inv_relocated {location : Location} {position : Position Customer} (inv : Inv state)
    (works : (state.position s).customer = some c) (keeps : position.customer = some c)
    (outside : (state.position s).inNode = false) (leaves : position.inNode = false)
    (located : Located location (state.active c) (state.queue.count c) (state.serving.count c) position) :
    Inv ((state.setLocation c location).move s position) := by
  refine { inv with staged := staged_moved inv.staged works keeps rfl rfl rfl ?_ ?_ ?_ ?_ ?_,free := ?_ }
  · exact fun d differs => Function.update_of_ne differs ..
  · exact fun d differs => rfl
  · exact fun d differs => rfl
  · exact fun d differs => rfl
  · simpa [VexQueueingNode.move,VexQueueingNode.setLocation] using located
  · exact free_moved inv outside leaves

private theorem inv_finished (inv : Inv state) (found : state.position s = .outside c) :
    Inv { state.move s .idle with simulating := Function.update state.simulating c false } := by
  have works : (state.position s).customer = some c := by rw [found]; rfl
  obtain ⟨-,only,unready,located⟩ := at_of_works inv.staged works
  rw [found] at located
  obtain ⟨elsewhere,-,unqueued,unserved⟩ := located
  refine { inv with staged := staged_of_agree c inv.staged ⟨.away,?_⟩ ?_,free := ?_ }
  · refine ⟨Function.update_self ..,fun s' => ?_,elsewhere,unready,unqueued,unserved⟩
    by_cases same : s' = s
    · subst same
      simp [VexQueueingNode.move,Position.customer]
    · simp [VexQueueingNode.move,same,only s']
  · intro d differs
    refine ⟨Function.update_of_ne differs ..,rfl,rfl,rfl,rfl,rfl,position_moved rfl ?_ nofun⟩
    rw [works]
    exact fun same => differs (Option.some.inj same).symm
  · exact free_moved inv (by rw [found]; rfl) rfl

private theorem inv_outside {toward : Next} (inv : Inv state) (stepped : state.outside s toward = some next) :
    Inv next := by
  unfold VexQueueingNode.outside at stepped
  split at stepped
  case h_3 c found =>
    cases stepped
    exact inv_finished inv found
  case h_4 => cases stepped
  all_goals
    rename_i c found
    cases stepped
    have works : (state.position s).customer = some c := by rw [found]; rfl
    have outside : (state.position s).inNode = false := by rw [found]; rfl
    have located := (at_of_works inv.staged works).2.2.2
    rw [found] at located
    obtain ⟨elsewhere,active,unqueued,unserved⟩ := located
  · exact inv_relocated inv works rfl outside rfl (.inl ⟨active,unqueued,unserved⟩)
  · exact inv_moved inv works rfl outside rfl (.inl ⟨active,unqueued,by rw [unserved,elsewhere]; rfl⟩)

/-- The scheduler that gets the mutex works on the same customer, before its method. -/
private theorem inv_locked {position : Position Customer} (inv : Inv state) (unlocked : state.mutex = none)
    (works : (state.position s).customer = some c) (keeps : position.customer = some c)
    (inside : position.inNode = true)
    (located : ∀ location active queue serving, Located location active queue serving (state.position s) →
      Located location active queue serving position) :
    Inv { state.move s position with mutex := some s } := by
  refine { inv with staged := staged_moved inv.staged works keeps rfl rfl rfl ?_ ?_ ?_ ?_ ?_,free := ?_ }
  · exact fun d differs => rfl
  · exact fun d differs => rfl
  · exact fun d differs => rfl
  · exact fun d differs => rfl
  · exact located _ _ _ _ (at_of_works inv.staged works).2.2.2
  · intro s'
    by_cases same : s' = s
    · subst same
      simp [VexQueueingNode.move,inside]
    · have outside := inv.free s'
      rw [unlocked] at outside
      simpa [VexQueueingNode.move,same,Ne.symm same] using outside

private theorem inv_lock (inv : Inv state) (stepped : state.lock s = some next) : Inv next := by
  simp only [VexQueueingNode.lock,Option.ite_none_right_eq_some] at stepped
  obtain ⟨unlocked,stepped⟩ := stepped
  split at stepped
  case h_3 => cases stepped
  all_goals
    rename_i c found
    cases stepped
    refine inv_locked inv unlocked (by rw [found]; rfl) rfl rfl ?_
    rw [found]
    exact fun _ _ _ _ located => located

private theorem inv_acceptCustomer (inv : Inv state) (found : state.position s = .accepting c)
    (fits : 0 < state.resources ∨ state.queue.length < state.capacity) : Inv (state.acceptCustomer s c) := by
  have works : (state.position s).customer = some c := by rw [found]; rfl
  have located := (at_of_works inv.staged works).2.2.2
  rw [found] at located
  obtain ⟨atNode,active,unqueued,unserved⟩ := located
  have inside : (state.position s).inNode = true := by rw [found]; rfl
  unfold VexQueueingNode.acceptCustomer
  by_cases available : 0 < state.resources
  · have empty : state.queue = [] := by
      by_contra waits
      exact absurd (inv.contended waits) (by omega)
    rw [if_pos available]
    refine ⟨staged_moved inv.staged works rfl rfl rfl rfl ?_ ?_ ?_ ?_ ?_,?_,?_,inv.bounded,?_,?_,?_⟩
    · exact fun d differs => rfl
    · exact fun d differs => rfl
    · exact fun d differs => rfl
    · exact fun d differs => by simp [Ne.symm differs]
    · exact ⟨active,unqueued,by simp [unserved]⟩
    · have claimed := inv.claimed
      show state.resources - 1 + (state.serving ++ [c]).length = state.nresources
      rw [List.length_append,List.length_singleton]
      omega
    · exact fun waits => absurd empty waits
    · show state.accepted ++ [c] = state.started ++ [c] ++ state.queue
      rw [inv.firstCome,empty,List.append_nil,List.append_nil]
    · intro d
      have once := inv.once d
      show (state.started ++ [c]).count d = state.completed.count d + (state.serving ++ [c]).count d
      rw [List.count_append,List.count_append]
      omega
    · exact free_unlocked inv inside rfl
  · have room : state.queue.length < state.capacity := fits.resolve_left available
    rw [if_neg available,if_pos room]
    refine ⟨staged_moved inv.staged works rfl rfl rfl rfl ?_ ?_ ?_ ?_ ?_,inv.claimed,?_,?_,?_,inv.once,?_⟩
    · exact fun d differs => rfl
    · exact fun d differs => Function.update_of_ne differs ..
    · exact fun d differs => by simp [Ne.symm differs]
    · exact fun d differs => rfl
    · exact ⟨atNode,Function.update_self ..,by simp [unqueued],unserved⟩
    · intro waits
      show state.resources = 0
      omega
    · show (state.queue ++ [c]).length ≤ state.capacity
      rw [List.length_append,List.length_singleton]
      omega
    · show state.accepted ++ [c] = state.started ++ (state.queue ++ [c])
      rw [inv.firstCome,List.append_assoc]
    · exact @free_unlocked _ _ _ _ state s _ inv inside rfl

private theorem inv_setNextAction (inv : Inv state) (stepped : state.setNextAction s = some next) :
    Inv next := by
  unfold VexQueueingNode.setNextAction at stepped
  split at stepped
  case h_2 => cases stepped
  rename_i c found
  cases stepped
  have works : (state.position s).customer = some c := by rw [found]; rfl
  have located := (at_of_works inv.staged works).2.2.2
  rw [found] at located
  obtain ⟨-,waits,queued,unserved⟩ := located
  exact inv_relocated inv works rfl (by rw [found]; rfl) rfl (.inr ⟨waits,rfl,queued,unserved⟩)

private theorem inv_invokeService (inv : Inv state) (stepped : state.invokeService s = some next) :
    Inv next := by
  unfold VexQueueingNode.invokeService at stepped
  split at stepped
  case h_2 => cases stepped
  rename_i c found
  cases stepped
  have works : (state.position s).customer = some c := by rw [found]; rfl
  have located := (at_of_works inv.staged works).2.2.2
  rw [found] at located
  obtain ⟨active,unqueued,served⟩ := located
  exact inv_relocated inv works rfl (by rw [found]; rfl) rfl (.inl ⟨active,unqueued,served⟩)

private theorem inv_forward {toNode : Bool} (inv : Inv state) (stepped : state.forward s toNode = some next) :
    Inv next := by
  unfold VexQueueingNode.forward at stepped
  split at stepped
  case h_2 => cases stepped
  rename_i c found
  cases stepped
  have works : (state.position s).customer = some c := by rw [found]; rfl
  have located := (at_of_works inv.staged works).2.2.2
  rw [found] at located
  obtain ⟨-,active,unqueued,unserved⟩ := located
  refine inv_relocated inv works rfl (by rw [found]; rfl) rfl (.inl ⟨active,unqueued,unserved.trans ?_⟩)
  cases toNode <;> rfl

private theorem inv_loop {again : Bool} (inv : Inv state) (stepped : state.loop s again = some next) :
    Inv next := by
  unfold VexQueueingNode.loop at stepped
  split at stepped
  case h_2 => cases stepped
  rename_i c found
  have works : (state.position s).customer = some c := by rw [found]; rfl
  have outside : (state.position s).inNode = false := by rw [found]; rfl
  have located := (at_of_works inv.staged works).2.2.2
  rw [found] at located
  cases again with
  | false =>
    cases stepped
    exact inv_moved inv works rfl outside rfl located
  | true =>
    rw [if_pos rfl,Option.ite_none_right_eq_some] at stepped
    obtain ⟨active,stepped⟩ := stepped
    cases stepped
    rw [enter_eq]
    apply inv_moved inv works (entered_customer c _) outside (entered_inNode c _)
    rcases located with ⟨-,unqueued,served⟩ | ⟨inactive,-⟩
    · rw [active,unqueued,served]
      exact located_entered c _
    · rw [active] at inactive
      cases inactive

/-- The scheduler leaves its customer, which waits in the queue or is pushed into the runnable queue. -/
private theorem inv_push (inv : Inv state) (stepped : state.push s = some next) : Inv next := by
  unfold VexQueueingNode.push at stepped
  split at stepped
  case h_2 => cases stepped
  rename_i c found
  have works : (state.position s).customer = some c := by rw [found]; rfl
  have outside : (state.position s).inNode = false := by rw [found]; rfl
  obtain ⟨on,only,unready,located⟩ := at_of_works inv.staged works
  rw [found] at located
  have left (s' : Scheduler) : ((state.move s .idle).position s').customer ≠ some c := by
    by_cases same : s' = s
    · subst same
      simp [VexQueueingNode.move,Position.customer]
    · simp [VexQueueingNode.move,same,only s']
  have others (d : Customer) (differs : d ≠ c) : (state.position s).customer ≠ some d := by
    rw [works]
    exact fun same => differs (Option.some.inj same).symm
  rcases located with ⟨active,unqueued,served⟩ | ⟨inactive,atPost,queued,unserved⟩
  · rw [if_pos active] at stepped
    cases stepped
    refine { inv with staged := staged_of_agree c inv.staged ⟨.runnable,?_⟩ ?_,free := ?_ }
    · exact ⟨on,left,active,by simp [unready],unqueued,served⟩
    · intro d differs
      exact ⟨rfl,rfl,rfl,by simp [Ne.symm differs],rfl,rfl,position_moved rfl (others d differs) nofun⟩
    · exact free_moved inv outside rfl
  · rw [if_neg (by simp [inactive])] at stepped
    cases stepped
    refine { inv with staged := staged_of_agree c inv.staged ⟨.waiting,?_⟩ ?_,free := ?_ }
    · exact ⟨on,left,inactive,atPost,unready,queued,unserved⟩
    · intro d differs
      exact ⟨rfl,rfl,rfl,rfl,rfl,rfl,position_moved rfl (others d differs) nofun⟩
    · exact free_moved inv outside rfl

/-- The service of the scheduler's customer ends; the other lists are unchanged. -/
private theorem staged_completed (inv : Inv state) (found : state.position s = .releasing c) :
    Staged { state.move s (.forward c) with serving := state.serving.erase c } := by
  have works : (state.position s).customer = some c := by rw [found]; rfl
  have located := (at_of_works inv.staged works).2.2.2
  rw [found] at located
  obtain ⟨atPost,active,unqueued,served⟩ := located
  refine staged_moved inv.staged works rfl rfl rfl rfl ?_ ?_ ?_ ?_ ?_
  · exact fun d differs => rfl
  · exact fun d differs => rfl
  · exact fun d differs => rfl
  · exact fun d differs => List.count_erase_of_ne differs
  · exact ⟨atPost,active,unqueued,by simp [served]⟩

/-- A waiting customer at the head of the queue becomes runnable with a resource. -/
private theorem staged_resumed {rest : List Customer} {head : Customer} (staged : Staged state)
    (found : state.queue = head :: rest) (left : ∀ s, (state.position s).customer ≠ some head) :
    Staged { state.resume head with queue := rest,serving := state.serving ++ [head] } := by
  obtain ⟨on,-,-,atPost,unready,queued,unserved⟩ := waiting_of_mem staged (by simp [found]) left
  have unqueued : rest.count head = 0 := by
    rw [found,List.count_cons_self] at queued
    omega
  refine staged_of_agree head staged ⟨.runnable,?_⟩ ?_
  · refine ⟨on,left,Function.update_self ..,?_,unqueued,?_⟩
    · simp [VexQueueingNode.resume,unready]
    · show (state.serving ++ [head]).count head = held (state.location head)
      rw [List.count_append,unserved,atPost]
      simp [held]
  · intro d differs
    refine ⟨rfl,rfl,Function.update_of_ne differs ..,?_,?_,?_,fun _ _ _ => Iff.rfl⟩
    · simp [VexQueueingNode.resume,VexQueueingNode.setActive,Ne.symm differs]
    · rw [found]
      simp [Ne.symm differs]
    · simp [Ne.symm differs]

private theorem inv_releaseFor (inv : Inv state) (found : state.position s = .releasing c)
    (fits : ∀ head ∈ state.queue.head?, ∀ s, (state.position s).customer ≠ some head) :
    Inv (state.releaseFor s c) := by
  have completed := staged_completed inv found
  have works : (state.position s).customer = some c := by rw [found]; rfl
  have inside : (state.position s).inNode = true := by rw [found]; rfl
  have served : state.serving.count c = 1 := by
    have located := (at_of_works inv.staged works).2.2.2
    rw [found] at located
    exact located.2.2.2
  have member : c ∈ state.serving := List.count_pos_iff.mp (by omega)
  have shorter : (state.serving.erase c).length + 1 = state.serving.length := by
    have positive := List.length_pos_of_mem member
    rw [List.length_erase_of_mem member]
    omega
  have ended (d : Customer) :
      (state.completed ++ [c]).count d + (state.serving.erase c).count d =
        state.completed.count d + state.serving.count d := by
    rw [List.count_append]
    by_cases same : d = c
    · subst same
      rw [List.count_erase_self,List.count_singleton_self]
      omega
    · rw [List.count_erase_of_ne same]
      simp [Ne.symm same]
  have claimed := inv.claimed
  unfold VexQueueingNode.releaseFor
  cases queued : state.queue with
  | nil =>
    refine ⟨completed,?_,fun waits => absurd queued waits,inv.bounded,inv.firstCome,fun d => ?_,?_⟩
    · show state.resources + 1 + (state.serving.erase c).length = state.nresources
      omega
    · exact (inv.once d).trans (ended d).symm
    · exact free_unlocked inv inside rfl
  | cons head rest =>
    have waited : ∀ s', (state.position s').customer ≠ some head := fits head (by simp [queued])
    have away : head ≠ c := by
      rintro rfl
      exact waited s works
    have left (s' : Scheduler) : ((state.move s (.forward c)).position s').customer ≠ some head := by
      by_cases same : s' = s
      · subst same
        simp [VexQueueingNode.move,Position.customer,Ne.symm away]
      · simp [VexQueueingNode.move,same,waited s']
    refine ⟨staged_resumed completed queued left,?_,fun _ => ?_,?_,?_,fun d => ?_,?_⟩
    · show state.resources + (state.serving.erase c ++ [head]).length = state.nresources
      rw [List.length_append,List.length_singleton]
      omega
    · exact inv.contended (by simp [queued])
    · have bounded := inv.bounded
      rw [queued,List.length_cons] at bounded
      show rest.length ≤ state.capacity
      omega
    · show state.accepted = state.started ++ [head] ++ rest
      rw [inv.firstCome,queued,List.append_assoc,List.singleton_append]
    · have once := inv.once d
      have counted := ended d
      show (state.started ++ [head]).count d =
        (state.completed ++ [c]).count d + (state.serving.erase c ++ [head]).count d
      simp only [List.count_append] at counted ⊢
      omega
    · exact @free_unlocked _ _ _ _ state s _ inv inside rfl

end Steps

private theorem inv_step {state next : VexQueueingNode Scheduler Customer} {event : Event Scheduler Customer}
    (inv : Inv state) (fits : state.Fits event) (stepped : state.step event = some next) : Inv next := by
  cases event with
  | simulate c => exact inv_simulate inv stepped
  | take s c => exact inv_take inv stepped
  | outside s toward => exact inv_outside inv stepped
  | lock s => exact inv_lock inv stepped
  | accept s =>
    change state.accept s = some next at stepped
    unfold VexQueueingNode.accept at stepped
    split at stepped
    case h_2 => cases stepped
    rename_i c found
    cases stepped
    exact inv_acceptCustomer inv found fits
  | setLocation s => exact inv_setNextAction inv stepped
  | invokeService s => exact inv_invokeService inv stepped
  | releaseResource s =>
    change state.releaseResource s = some next at stepped
    unfold VexQueueingNode.releaseResource at stepped
    split at stepped
    case h_2 => cases stepped
    rename_i c found
    cases stepped
    exact inv_releaseFor inv found fits
  | forward s toNode => exact inv_forward inv stepped
  | loop s again => exact inv_loop inv stepped
  | push s => exact inv_push inv stepped

private theorem inv_start (nresources capacity : Nat) (lossLocation : Location) :
    Inv (start nresources capacity lossLocation : VexQueueingNode Scheduler Customer) := by
  refine ⟨fun c => ⟨.away,rfl,fun s => nofun,rfl,rfl,rfl,rfl⟩,rfl,nofun,Nat.zero_le _,rfl,fun c => rfl,?_⟩
  exact fun s => ⟨nofun,nofun⟩

private theorem held_pos (location : Location) :
    0 < held location ↔ location = .postQueueingAction ∨ location = .postServiceAction := by
  cases location <;> simp [held]

private theorem serving_le_one {location : Location} {active : Bool} {queue serving : Nat}
    {position : Position Customer} (located : Located location active queue serving position) :
    serving ≤ 1 := by
  have few : held location ≤ 1 := by cases location <;> simp [held]
  cases position <;> simp only [Located] at located <;> omega

/-- The customers with a resource, found from the scheduler at work on them or from their next node. -/
private theorem inService_iff {state : VexQueueingNode Scheduler Customer} (staged : Staged state)
    (c : Customer) : 0 < state.serving.count c ↔ state.InService c := by
  obtain ⟨stage,found⟩ := staged c
  have notForward (left : ∀ s, (state.position s).customer ≠ some c) (s : Scheduler) :
      state.position s ≠ .forward c := by
    intro same
    exact left s (by rw [same]; rfl)
  have notInvoked (left : ∀ s, (state.position s).customer ≠ some c) :
      ¬∃ s, state.position s = .invokeService c := by
    rintro ⟨s,same⟩
    exact left s (by rw [same]; rfl)
  cases stage with
  | away =>
    obtain ⟨-,left,elsewhere,-,-,unserved⟩ := found
    simp [VexQueueingNode.InService,notInvoked left,elsewhere,unserved]
  | runnable =>
    obtain ⟨-,left,active,-,-,served⟩ := found
    rw [served]
    cases at' : state.location c <;>
      simp [VexQueueingNode.InService,notInvoked left,notForward left,active,at',held]
  | waiting =>
    obtain ⟨-,left,inactive,-,-,-,unserved⟩ := found
    simp [VexQueueingNode.InService,notInvoked left,inactive,unserved]
  | «at» s =>
    obtain ⟨-,only,-,located⟩ := found
    have works := (only s).mpr rfl
    have alone (position : Position Customer) (keeps : position.customer = some c) :
        (∃ s', state.position s' = position) ↔ state.position s = position := by
      constructor
      · rintro ⟨s',same⟩
        have here : s' = s := (only s').mp (by rw [same,keeps])
        rw [← here,same]
      · exact fun same => ⟨s,same⟩
    have forward : (∀ s', state.position s' ≠ .forward c) ↔ state.position s ≠ .forward c := by
      rw [← not_exists,alone (.forward c) rfl]
    rw [VexQueueingNode.InService,alone (.invokeService c) rfl,forward,← held_pos]
    cases here : state.position s <;> rw [here] at works located <;>
      simp only [Position.customer,Option.some.injEq,reduceCtorEq] at works
    case returned | simulated =>
      rcases located with ⟨active,-,served⟩ | ⟨inactive,-,-,unserved⟩
      · simp [active,served]
      · simp [inactive,unserved]
    all_goals
      subst works
      simp [Located] at located
      simp [located,held]

/-- The invariant says what the law does. -/
private theorem lawful_of_inv {state : VexQueueingNode Scheduler Customer} (inv : Inv state) :
    state.Lawful := by
  have single (s s' : Scheduler) (c : Customer) (first : (state.position s).customer = some c)
      (second : (state.position s').customer = some c) : s = s' :=
    (((at_of_works inv.staged second).2.1 s).mp first)
  refine ⟨inv.claimed,?_,?_,inv.contended,inv.bounded,inv.firstCome,inv.once,?_,?_,single,?_,inv.free⟩
  · rw [List.nodup_iff_count_le_one]
    intro c
    obtain ⟨stage,found⟩ := inv.staged c
    cases stage with
    | away => exact found.2.2.2.2.2.trans_le (Nat.zero_le 1)
    | runnable =>
      rw [found.2.2.2.2.2]
      cases state.location c <;> simp [held]
    | waiting => exact found.2.2.2.2.2.2.trans_le (Nat.zero_le 1)
    | «at» s => exact serving_le_one found.2.2.2
  · intro c
    rw [← List.count_pos_iff]
    exact inService_iff inv.staged c
  · intro c on
    obtain ⟨stage,found⟩ := inv.staged c
    cases stage with
    | away =>
      rw [found.1] at on
      cases on
    | runnable => exact .inl (List.count_pos_iff.mp (by have := found.2.2.2.1; omega))
    | waiting => exact .inr (.inl (List.count_pos_iff.mp (by have := found.2.2.2.2.2.1; omega)))
    | «at» s => exact .inr (.inr ⟨s,(found.2.1 s).mpr rfl⟩)
  · intro s c here
    have works : (state.position s).customer = some c := by rw [here]; rfl
    have located := (at_of_works inv.staged works).2.2.2
    rw [here] at located
    exact List.count_pos_iff.mp (by have := located.2.2.1; omega)
  · intro s c works ready
    have counted : 0 < state.runnableThreads.count c := List.count_pos_iff.mpr ready
    have absent := (at_of_works inv.staged works).2.2.1
    omega

/-! ## Exactly the fitting steps keep the law -/

section Sharp
variable {state next : VexQueueingNode Scheduler Customer} {s : Scheduler} {c : Customer}

/-- The mutex of a scheduler that sends its customer to the loss node stays locked. -/
private theorem room_of_lawful (inv : Inv state) (found : state.position s = .accepting c)
    (lawful : (state.acceptCustomer s c).Lawful) :
    0 < state.resources ∨ state.queue.length < state.capacity := by
  by_contra full
  rw [not_or] at full
  have holder : state.mutex = some s := (inv.free s).mpr (by rw [found]; rfl)
  rw [VexQueueingNode.acceptCustomer,if_neg full.1,if_neg full.2] at lawful
  have inside := (lawful.free s).mp holder
  simp [VexQueueingNode.move,Position.inNode] at inside

/-- A customer that is resumed under the scheduler that queued it is simulated by that scheduler and
    runnable at once. -/
private theorem left_of_lawful (inv : Inv state) (found : state.position s = .releasing c)
    (lawful : (state.releaseFor s c).Lawful) (head : Customer) (first : head ∈ state.queue.head?)
    (s' : Scheduler) : (state.position s').customer ≠ some head := by
  intro works
  obtain ⟨rest,queued⟩ : ∃ rest, state.queue = head :: rest := by
    cases queued : state.queue with
    | nil => simp [queued] at first
    | cons other rest =>
      rw [queued] at first
      exact ⟨rest,by rw [Option.some.inj first]⟩
  have waits : 0 < state.queue.count head := List.count_pos_iff.mpr (by simp [queued])
  have other : s' ≠ s := by
    rintro rfl
    have located := (at_of_works inv.staged works).2.2.2
    rw [found] at located
    exact absurd located.2.2.1 (by omega)
  unfold VexQueueingNode.releaseFor at lawful
  rw [queued] at lawful
  refine lawful.alone s' head ?_ (by simp [VexQueueingNode.resume,VexQueueingNode.move])
  show (Function.update state.position s (.forward c) s').customer = some head
  rw [Function.update_of_ne other]
  exact works

private theorem lawful_iff {event : Event Scheduler Customer} (inv : Inv state)
    (stepped : state.step event = some next) : next.Lawful ↔ state.Fits event := by
  constructor
  · intro lawful
    cases event with
    | accept s =>
      change state.accept s = some next at stepped
      unfold VexQueueingNode.accept at stepped
      split at stepped
      case h_2 => cases stepped
      rename_i c found
      cases stepped
      exact room_of_lawful inv found lawful
    | releaseResource s =>
      change state.releaseResource s = some next at stepped
      unfold VexQueueingNode.releaseResource at stepped
      split at stepped
      case h_2 => cases stepped
      rename_i c found
      cases stepped
      exact left_of_lawful inv found lawful
    | _ => trivial
  · exact fun fits => lawful_of_inv (inv_step inv fits stepped)

end Sharp

/-- For all schedulers and customers, any number of resources and any capacity: a run keeps the node's
    law in all its states exactly if no customer is sent to the loss node and no customer is handed a
    resource under the scheduler that queued it. -/
theorem node_lawful_iff (nresources capacity : Nat) (lossLocation : Location) (events : List (Event Scheduler Customer))
    {last : VexQueueingNode Scheduler Customer}
    (executed : run VexQueueingNode.step (start nresources capacity lossLocation) events = some last) :
    Meets VexQueueingNode.step (fun state event => ∀ next ∈ state.step event, next.Lawful)
        (start nresources capacity lossLocation) events ↔
      Meets VexQueueingNode.step VexQueueingNode.Fits (start nresources capacity lossLocation) events := by
  refine @meets_law_iff _ _ _ _ Inv VexQueueingNode.Lawful ?_ ?_ _ last events
    (inv_start nresources capacity lossLocation) (lawful_of_inv (inv_start nresources capacity lossLocation)) executed
  · intro state event next inv lawful stepped
    exact inv_step inv ((lawful_iff inv stepped).mp lawful) stepped
  · intro state event next inv _ stepped
    exact lawful_iff inv stepped

instance VexQueueingNode.decidableFits [Fintype Scheduler] (state : VexQueueingNode Scheduler Customer) :
    (event : Event Scheduler Customer) → Decidable (state.Fits event)
  | .accept _ => inferInstanceAs (Decidable (_ ∨ _))
  | .releaseResource _ => inferInstanceAs (Decidable (∀ head ∈ state.queue.head?, ∀ s, (state.position s).customer ≠ some head))
  | .simulate _ | .take _ _ | .outside _ _ | .lock _ | .setLocation _ | .invokeService _ | .forward _ _
  | .loop _ _ | .push _ => inferInstanceAs (Decidable True)

/-- The scheduler brings a customer to the node, up to the unlock of its mutex. -/
private def arrival (s : Bool) (c : Nat) : List (Event Bool Nat) :=
  [.simulate c,.take s c,.outside s .node,.loop s true,.lock s,.accept s]

/-- The scheduler leaves its customer. -/
private def leave (s : Bool) : List (Event Bool Nat) := [.loop s false,.push s]

/-- Customer 0 is in service and customer 1 is queued; then the resource is handed over. -/
private def contended : List (Event Bool Nat) :=
  arrival false 0 ++ [.invokeService false] ++ leave false ++ arrival true 1 ++ [.setLocation true] ++
    leave true ++ [.take false 0,.lock false,.releaseResource false,.forward false false] ++ leave false ++
    [.take true 1,.invokeService true] ++ leave true

theorem node_lawful_contended :
    Meets VexQueueingNode.step (fun state event => ∀ next ∈ state.step event, next.Lawful) (start 1 1 .node)
      contended := by
  obtain ⟨last,executed,-⟩ := @exists_of_checked _ _ VexQueueingNode.step (fun _ => true) (start 1 1 .node) contended
    (by decide +kernel)
  exact (node_lawful_iff 1 1 .node contended executed).mpr (by decide +kernel)

/-- The resource is handed to customer 1 before scheduler `true` has set its next action: scheduler
    `false` sees it at the node and is about to accept it again. -/
private def early : List (Event Bool Nat) :=
  arrival false 0 ++ [.invokeService false] ++ leave false ++ arrival true 1 ++
    [.take false 0,.lock false,.releaseResource false,.forward false false] ++ leave false ++
    [.take false 1]

/-- Customer 2 finds the queue full. -/
private def loss : List (Event Bool Nat) :=
  arrival false 0 ++ [.invokeService false] ++ leave false ++ arrival false 1 ++ [.setLocation false] ++
    leave false ++ arrival false 2 ++ leave false

/-- A resumed customer is seen before its next action is set, and two schedulers simulate it; the mutex
    of the node that lost a customer is held by an idle scheduler. -/
theorem resumed_early_and_lock_kept :
    (∃ last, run VexQueueingNode.step (start 1 1 .node) early = some last ∧
      last.position false = .accept 1 ∧ last.position true = .queued 1 ∧ last.queue = [] ∧ ¬ last.Lawful) ∧
    ∃ last, run VexQueueingNode.step (start 1 1 .node) loss = some last ∧
      last.mutex = some false ∧ last.position false = .idle ∧ ¬ last.Lawful := by
  constructor
  · obtain ⟨last,executed,checked⟩ := @exists_of_checked _ _ VexQueueingNode.step
      (fun last => last.position false = .accept 1 ∧ last.position true = .queued 1 ∧ last.queue = [])
      (start 1 1 .node) early (by decide +kernel)
    obtain ⟨accepts,queues,empty⟩ := of_decide_eq_true checked
    refine ⟨last,executed,accepts,queues,empty,fun lawful => ?_⟩
    have waits := lawful.nextAction true 1 queues
    simp [empty] at waits
  · obtain ⟨last,executed,checked⟩ := @exists_of_checked _ _ VexQueueingNode.step
      (fun last => last.mutex = some false ∧ last.position false = .idle) (start 1 1 .node) loss (by decide +kernel)
    obtain ⟨held,idle⟩ := of_decide_eq_true checked
    refine ⟨last,executed,held,idle,fun lawful => ?_⟩
    have inside := (lawful.free false).mp held
    simp [idle,Position.inNode] at inside

end Vexjine.QueueingNode
