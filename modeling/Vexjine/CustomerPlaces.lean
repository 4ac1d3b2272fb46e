import Vexjine.NetworkMoves

/-!
# The places of the customers

Over every run every customer that was built is in one place: in one queue, in one pending end of service, in a sink,
lost to the null node, or gone with an event that was not invoked.
-/

namespace Vexjine.QueueingNetworks
open Vexjine.Diary
open Vexjine.EventSimulation (Sim)
open Vexjine.Runs

/-- How often a customer is in the queue of the node it is at. -/
def Network.waiting (net : Network) (c : ℕ) : ℕ :=
  (net.customers c).location.elim 0 fun n => (net.nodes n).queue.contents.count c

/-- The number of places that a customer is in. -/
def Floor.places (f : Floor) (c : ℕ) : ℕ :=
  f.net.waiting c + f.services.countP (fun s => decide (s.customer = c)) + f.hand.count c +
    f.net.history.completed.count c + f.net.history.lost.count c + f.net.history.dropped.count c

/-- Every customer that was built is in exactly one place, which its location says. -/
structure Placed (config : List Station) (f : Floor) : Prop where
  once : ∀ c, f.places c = if c < f.net.customerId then 1 else 0
  queued : ∀ n, ∀ c ∈ (f.net.nodes n).queue.contents, (f.net.customers c).location = some n
  served : ∀ s ∈ f.services, (f.net.customers s.customer).location = some s.node
  sinks : ∀ c ∈ f.net.history.completed, ∃ n, (f.net.customers c).location = some n ∧ kindOf config n = some .sink
  completions : f.net.completions = f.net.history.completed.length
  lost : ∀ c ∈ f.net.history.lost, ∃ n pool, (f.net.customers c).location = some n ∧ poolOf config n = some pool ∧
    pool.lossNode = none
  losses : ∀ n pool, poolOf config n = some pool → pool.lossNode = none →
    (f.net.nodes n).losses = f.net.history.lost.countP fun c => decide ((f.net.customers c).location = some n)

section Places
variable {config : List Station} {samplers : Samplers} {resets drops : Bool} {net next : Network} {pending later : List Service}
  {hand : List ℕ} {r r' : Option ℕ} {n c : ℕ}

/-- A customer that is in no place at all. -/
structure Nowhere (net : Network) (pending : List Service) (c : ℕ) : Prop where
  queued : ∀ n, c ∉ (net.nodes n).queue.contents
  served : ∀ s ∈ pending, s.customer ≠ c
  completed : c ∉ net.history.completed
  lost : c ∉ net.history.lost
  dropped : c ∉ net.history.dropped

private theorem nowhere_of_zero (placed : Placed config ⟨net,pending,hand,r⟩)
    (zero : net.waiting c + pending.countP (fun s => decide (s.customer = c)) + net.history.completed.count c +
      net.history.lost.count c + net.history.dropped.count c = 0) : Nowhere net pending c := by
  have waiting : net.waiting c = 0 := by omega
  have serving : pending.countP (fun s => decide (s.customer = c)) = 0 := by omega
  constructor
  case queued =>
    intro n member
    have at_n := placed.queued n c member
    rw [Network.waiting,at_n,Option.elim_some] at waiting
    exact List.count_eq_zero.mp waiting member
  case served =>
    intro s member same
    have none := List.countP_eq_zero.mp serving s member
    exact none (decide_eq_true same)
  case completed => exact List.count_eq_zero.mp (by omega)
  case lost => exact List.count_eq_zero.mp (by omega)
  case dropped => exact List.count_eq_zero.mp (by omega)

/-- A customer on its way is in no other place. -/
theorem nowhere_of_hand (placed : Placed config ⟨net,pending,[c],r⟩) :
    Nowhere net pending c ∧ c < net.customerId := by
  have once := placed.once c
  dsimp only [Floor.places] at once
  rw [List.count_singleton_self] at once
  by_cases known : c < net.customerId
  · rw [if_pos known] at once
    exact ⟨nowhere_of_zero placed (by omega),known⟩
  · rw [if_neg known] at once
    omega

/-- Nobody has the number of the next customer. -/
theorem nowhere_fresh (placed : Placed config ⟨net,pending,hand,r⟩) : Nowhere net pending net.customerId := by
  have once := placed.once net.customerId
  dsimp only [Floor.places] at once
  rw [if_neg (lt_irrefl _)] at once
  exact nowhere_of_zero placed (by omega)

/-- The queues and the places of the other customers are as they were. -/
private structure SameBut (config : List Station) (net next : Network) (c : ℕ) : Prop where
  customers : ∀ other, other ≠ c → (next.customers other).location = (net.customers other).location
  contents : ∀ n, (next.nodes n).queue.contents = (net.nodes n).queue.contents
  completed : next.history.completed = net.history.completed
  lost : next.history.lost = net.history.lost
  dropped : next.history.dropped = net.history.dropped
  completions : next.completions = net.completions
  losses : ∀ n pool, poolOf config n = some pool → pool.lossNode = none → (next.nodes n).losses = (net.nodes n).losses

private theorem SameBut.waiting (same : SameBut config net next c) {other : ℕ} (differs : other ≠ c) :
    next.waiting other = net.waiting other := by
  rw [Network.waiting,Network.waiting,same.customers other differs]
  cases (net.customers other).location with
  | none => rfl
  | some n => rw [Option.elim_some,Option.elim_some,same.contents]

private theorem Nowhere.waiting (nowhere : Nowhere net pending c) : net.waiting c = 0 := by
  rw [Network.waiting]
  cases (net.customers c).location with
  | none => rfl
  | some n => exact List.count_eq_zero.mpr (nowhere.queued n)

private theorem Nowhere.same (nowhere : Nowhere net pending c) (same : SameBut config net next c) :
    Nowhere next pending c where
  queued n := same.contents n ▸ nowhere.queued n
  served := nowhere.served
  completed := same.completed ▸ nowhere.completed
  lost := same.lost ▸ nowhere.lost
  dropped := same.dropped ▸ nowhere.dropped

private theorem countP_customer (served : ∀ s ∈ pending, s.customer ≠ c) :
    pending.countP (fun s => decide (s.customer = c)) = 0 :=
  List.countP_eq_zero.mpr fun s member => by simpa using served s member

/-- What happens to a customer that is in no place moves nobody else. -/
private theorem placed_same (placed : Placed config ⟨net,pending,hand,r⟩) (nowhere : Nowhere net pending c)
    (same : SameBut config net next c) (customerId : ℕ)
    (onceHere : ([c] : List ℕ).count c = if c < customerId then 1 else 0)
    (others : ∀ other, other ≠ c → (hand.count other = 0 ∧ (other < net.customerId ↔ other < customerId)))
    (counted : next.customerId = customerId) : Placed config ⟨next,pending,[c],r'⟩ where
  once other := by
    dsimp only [Floor.places]
    rw [counted]
    by_cases differs : other = c
    · subst differs
      have gone := nowhere.same same
      rw [gone.waiting,countP_customer gone.served,List.count_eq_zero.mpr gone.completed,
        List.count_eq_zero.mpr gone.lost,List.count_eq_zero.mpr gone.dropped]
      simpa using onceHere
    · have once := placed.once other
      dsimp only [Floor.places] at once
      obtain ⟨notInHand,known⟩ := others other differs
      rw [same.waiting differs,same.completed,same.lost,same.dropped,List.count_singleton,
        if_neg (by simpa using fun e => differs e.symm)]
      rw [notInHand] at once
      rw [once]
      by_cases old : other < net.customerId
      · rw [if_pos old,if_pos (known.mp old)]
      · rw [if_neg old,if_neg fun e => old (known.mpr e)]
  queued n other member := by
    rw [same.contents] at member
    have differs : other ≠ c := by
      rintro rfl
      exact nowhere.queued n member
    rw [same.customers other differs]
    exact placed.queued n other member
  served s member := by
    rw [same.customers s.customer (nowhere.served s member)]
    exact placed.served s member
  sinks other member := by
    rw [same.completed] at member
    have differs : other ≠ c := by
      rintro rfl
      exact nowhere.completed member
    rw [same.customers other differs]
    exact placed.sinks other member
  completions := by
    rw [same.completions,same.completed]
    exact placed.completions
  lost other member := by
    rw [same.lost] at member
    have differs : other ≠ c := by
      rintro rfl
      exact nowhere.lost member
    rw [same.customers other differs]
    exact placed.lost other member
  losses n pool server alone := by
    rw [same.losses n pool server alone,same.lost]
    refine (placed.losses n pool server alone).trans (List.countP_congr ?_)
    intro other member
    have differs : other ≠ c := by
      rintro rfl
      exact nowhere.lost member
    rw [same.customers other differs]

/-- A customer on its way goes on. -/
private theorem placed_onward (placed : Placed config ⟨net,pending,[c],r⟩) (same : SameBut config net next c)
    (counted : next.customerId = net.customerId) : Placed config ⟨next,pending,[c],r'⟩ := by
  obtain ⟨nowhere,known⟩ := nowhere_of_hand placed
  refine placed_same placed nowhere same net.customerId ?_ ?_ counted
  · rw [List.count_singleton_self,if_pos known]
  · intro other differs
    refine ⟨?_,Iff.rfl⟩
    rw [List.count_singleton,if_neg (by simpa using fun e => differs e.symm)]

/-- Customers that stay at their nodes go from one place to another one there. -/
private theorem placed_transfer {hand' : List ℕ} (placed : Placed config ⟨net,pending,hand,r⟩)
    (locations : ∀ c, (next.customers c).location = (net.customers c).location)
    (counted : next.customerId = net.customerId)
    (places : ∀ c, Floor.places ⟨next,later,hand',r'⟩ c = Floor.places ⟨net,pending,hand,r⟩ c)
    (queued : ∀ n, ∀ c ∈ (next.nodes n).queue.contents,
      c ∈ (net.nodes n).queue.contents ∨ (net.customers c).location = some n)
    (served : ∀ s ∈ later, s ∈ pending ∨ (net.customers s.customer).location = some s.node)
    (sinks : ∀ c ∈ next.history.completed, c ∈ net.history.completed ∨
      ∃ n, (net.customers c).location = some n ∧ kindOf config n = some .sink)
    (completions : next.completions = next.history.completed.length)
    (lost : ∀ c ∈ next.history.lost, c ∈ net.history.lost ∨ ∃ n pool, (net.customers c).location = some n ∧
      poolOf config n = some pool ∧ pool.lossNode = none)
    (losses : ∀ n pool, poolOf config n = some pool → pool.lossNode = none →
      (next.nodes n).losses = next.history.lost.countP fun c => decide ((net.customers c).location = some n)) :
    Placed config ⟨next,later,hand',r'⟩ where
  once c := by
    rw [places]
    exact counted ▸ placed.once c
  queued n c member := by
    rw [locations]
    exact (queued n c member).elim (placed.queued n c) id
  served s member := by
    rw [locations]
    exact (served s member).elim (placed.served s) id
  sinks c member := by
    rw [locations]
    exact (sinks c member).elim (placed.sinks c) id
  completions := completions
  lost c member := by
    rw [locations]
    exact (lost c member).elim (placed.lost c) id
  losses n pool server alone := by
    simp only [locations]
    exact losses n pool server alone

private theorem waiting_congr (locations : ∀ c, (next.customers c).location = (net.customers c).location)
    (contents : ∀ n, (next.nodes n).queue.contents = (net.nodes n).queue.contents) (c : ℕ) :
    next.waiting c = net.waiting c := by
  rw [Network.waiting,Network.waiting,locations]
  simp only [contents]

/-- Nothing but the pending services and the customer on its way has changed. -/
private theorem placed_served {hand' : List ℕ} (placed : Placed config ⟨net,pending,hand,r⟩)
    (customers : next.customers = net.customers) (contents : ∀ n, (next.nodes n).queue.contents = (net.nodes n).queue.contents)
    (losses : ∀ n, (next.nodes n).losses = (net.nodes n).losses) (counted : next.customerId = net.customerId)
    (completions : next.completions = net.completions) (completed : next.history.completed = net.history.completed)
    (lost : next.history.lost = net.history.lost) (dropped : next.history.dropped = net.history.dropped)
    (count : ∀ c, later.countP (fun s => decide (s.customer = c)) + hand'.count c =
      pending.countP (fun s => decide (s.customer = c)) + hand.count c)
    (served : ∀ s ∈ later, s ∈ pending ∨ (net.customers s.customer).location = some s.node) :
    Placed config ⟨next,later,hand',r'⟩ := by
  have locations : ∀ c, (next.customers c).location = (net.customers c).location := fun c => by rw [customers]
  refine placed_transfer placed locations counted ?_ ?_ served ?_ ?_ ?_ ?_
  · intro c
    have balance := count c
    dsimp only [Floor.places]
    rw [waiting_congr locations contents,completed,lost,dropped]
    omega
  · intro n c member
    exact .inl (contents n ▸ member)
  · intro c member
    exact .inl (completed ▸ member)
  · rw [completions,completed]
    exact placed.completions
  · intro c member
    exact .inl (lost ▸ member)
  · intro n pool server alone
    rw [losses,lost]
    exact placed.losses n pool server alone

private theorem countP_cons_customer (s : Service) (pending : List Service) (c : ℕ) :
    (s :: pending).countP (fun s => decide (s.customer = c)) =
      pending.countP (fun s => decide (s.customer = c)) + [s.customer].count c := by
  rw [List.countP_cons,List.count_singleton]
  simp

/-- A customer on its way is served. -/
private theorem count_serve {time : ℚ} (added : later.Perm (⟨c,n,time⟩ :: pending)) (other : ℕ) :
    later.countP (fun s => decide (s.customer = other)) + ([] : List ℕ).count other =
      pending.countP (fun s => decide (s.customer = other)) + [c].count other := by
  rw [added.countP_eq,countP_cons_customer]
  rfl

private theorem served_serve {time : ℚ} (at_n : (net.customers c).location = some n)
    (added : later.Perm (⟨c,n,time⟩ :: pending)) :
    ∀ s ∈ later, s ∈ pending ∨ (net.customers s.customer).location = some s.node := by
  intro s member
  rcases List.mem_cons.mp (added.subset member) with rfl | old
  · exact .inr at_n
  · exact .inl old

theorem queue_setNode (node : Node) (same : node.queue.contents = (net.nodes n).queue.contents) (m : ℕ) :
    ((net.setNode n node).nodes m).queue.contents = (net.nodes m).queue.contents := by
  rw [Network.nodes_setNode]
  by_cases here : m = n
  · subst here
    rw [Function.update_self,same]
  · rw [Function.update_of_ne here]

private theorem losses_setNode (node : Node) (same : node.losses = (net.nodes n).losses) (m : ℕ) :
    ((net.setNode n node).nodes m).losses = (net.nodes m).losses := by
  rw [Network.nodes_setNode]
  by_cases here : m = n
  · subst here
    rw [Function.update_self,same]
  · rw [Function.update_of_ne here]

/-- What `enqueue` does; the new customer may stand anywhere in the queue. -/
theorem enqueue_spec {discipline : Discipline} (enqueued : net.enqueue samplers discipline n c = some next) :
    ∃ contents, contents.Perm (c :: (net.nodes n).queue.contents) ∧ (net.nodes n).queue.pop < (net.nodes n).queue.capacity ∧
      next = ((net.setCustomer c { net.customers c with queueInsertionTime := net.now }).setNode n { net.nodes n with
        queue := (net.nodes n).queue.changed net.now contents ((net.nodes n).queue.pop + 1) }).draw := by
  obtain ⟨queue,inserted,rfl⟩ := Option.map_eq_some_iff.mp enqueued
  unfold Queue.enqueue at inserted
  split at inserted
  case isTrue room =>
    obtain ⟨contents,placed,rfl⟩ := Option.map_eq_some_iff.mp inserted
    refine ⟨contents,?_,by simpa [Queue.canAccept] using room,rfl⟩
    cases discipline with
    | fifo =>
      cases placed
      exact List.perm_append_singleton ..
    | lifo =>
      cases placed
      exact .refl _
    | random =>
      unfold Discipline.insertIntoQueue at placed
      dsimp only at placed
      split at placed
      · cases placed
        refine List.perm_middle.trans ?_
        rw [List.take_append_drop]
      · cases placed
    | ordered =>
      cases placed
      exact Insertions.perm_insertion _ c _
  · cases inserted

/-- What `dequeue` does. -/
theorem dequeue_spec (dequeued : net.dequeue n = some (c,next)) :
    ∃ rest, (net.nodes n).queue.contents = c :: rest ∧ 0 < (net.nodes n).queue.pop ∧
      next = (net.setNode n { net.nodes n with
        queue := { (net.nodes n).queue.changed net.now rest ((net.nodes n).queue.pop - 1) with
          queueingTime := (net.nodes n).queue.queueingTime.add (net.now - (net.customers c).queueInsertionTime) } }).waits
            c := by
  obtain ⟨taken,removed,same⟩ := Option.map_eq_some_iff.mp dequeued
  unfold Queue.dequeue at removed
  split at removed
  · cases removed
  case h_2 first rest contents =>
    split at removed
    case isTrue some =>
      cases removed
      cases same
      exact ⟨rest,contents,some,rfl⟩
    · cases removed

/-- What a claim and a release do. -/
theorem claim_spec {resource claimed : Resource} {now : ℚ} (taken : resource.claim now = some claimed) :
    0 < resource.resources ∧ claimed = resource.changed now (resource.resources - 1) := by
  unfold Resource.claim at taken
  split at taken
  case isTrue available =>
    cases taken
    exact ⟨by simpa [Resource.resourceIsAvailable] using available,rfl⟩
  · cases taken

theorem release_spec {resource released : Resource} {now : ℚ} (freed : resource.release now = some released) :
    resource.resources < resource.nresources ∧ released = resource.changed now (resource.resources + 1) := by
  unfold Resource.release at freed
  split at freed
  case isTrue claimed =>
    cases freed
    exact ⟨claimed,rfl⟩
  · cases freed

private theorem sameBut_setLocation (net : Network) (n c : ℕ) : SameBut config net (net.setLocation n c) c where
  customers other differs := by
    rw [Network.setLocation,Network.customers_setCustomer,Function.update_of_ne differs]
  contents _ := rfl
  completed := rfl
  lost := rfl
  dropped := rfl
  completions := rfl
  losses _ _ _ _ := rfl

private theorem sameBut_arrive (net : Network) (n c : ℕ) : SameBut config net (net.arrive n c) c where
  customers other differs := by
    rw [Network.arrive,Network.setLocation,Network.customers_setCustomer,Function.update_of_ne differs]
    rfl
  contents := queue_setNode _ rfl
  completed := rfl
  lost := rfl
  dropped := rfl
  completions := rfl
  losses m _ _ _ := losses_setNode { net.nodes n with arrivals := (net.nodes n).arrivals + 1 } rfl m

private theorem sameBut_sampleDemand (net : Network) (n c : ℕ) :
    SameBut config net (net.sampleDemand samplers n c) c where
  customers other differs := by
    show ((Function.update net.customers c _) other).location = _
    rw [Function.update_of_ne differs]
  contents _ := rfl
  completed := rfl
  lost := rfl
  dropped := rfl
  completions := rfl
  losses _ _ _ _ := rfl

private theorem sameBut_lose {pool : Pool} (server : poolOf config n = some pool) (passed : pool.lossNode ≠ none) (c : ℕ) :
    SameBut config net (net.lose n) c where
  customers _ _ := rfl
  contents := queue_setNode _ rfl
  completed := rfl
  lost := rfl
  dropped := rfl
  completions := rfl
  losses m pool' server' alone := by
    rw [Network.lose,Network.nodes_setNode,Function.update_of_ne]
    rintro rfl
    rw [server,Option.some.injEq] at server'
    exact passed (server' ▸ alone)

private theorem sameBut_buildCustomer (net : Network) (type : ℤ) :
    SameBut config net (net.buildCustomer type) net.customerId where
  customers other differs := by
    show ((Function.update net.customers net.customerId _) other).location = _
    rw [Function.update_of_ne differs]
  contents _ := rfl
  completed := rfl
  lost := rfl
  dropped := rfl
  completions := rfl
  losses _ _ _ _ := rfl

/-- The queue of the node gets the customer, and no other queue changes. -/
private theorem waiting_enqueue {contents : List ℕ} (at_n : (net.customers c).location = some n)
    (arranged : contents.Perm (c :: (net.nodes n).queue.contents))
    (locations : ∀ c, (next.customers c).location = (net.customers c).location)
    (here : (next.nodes n).queue.contents = contents)
    (elsewhere : ∀ m, m ≠ n → (next.nodes m).queue.contents = (net.nodes m).queue.contents) (other : ℕ) :
    next.waiting other = net.waiting other + [c].count other := by
  rw [Network.waiting,Network.waiting,locations]
  by_cases same : other = c
  · subst same
    rw [at_n,Option.elim_some,Option.elim_some,here,arranged.count_eq,List.count_cons_self,List.count_singleton_self]
  · have notIn : [c].count other = 0 := by
      rw [List.count_singleton,if_neg (by simpa using fun e => same e.symm)]
    rw [notIn,Nat.add_zero]
    cases at_m : (net.customers other).location with
    | none => rfl
    | some m =>
      rw [Option.elim_some,Option.elim_some]
      by_cases node : m = n
      · subst node
        rw [here,arranged.count_eq,List.count_cons_of_ne fun e => same e.symm]
      · rw [elsewhere m node]

private theorem placed_enqueue {discipline : Discipline} (placed : Placed config ⟨net,pending,[c],r⟩)
    (at_n : (net.customers c).location = some n) (enqueued : net.enqueue samplers discipline n c = some next) :
    Placed config ⟨next,pending,[],r⟩ := by
  obtain ⟨contents,arranged,-,same⟩ := enqueue_spec enqueued
  have locations : ∀ other, (next.customers other).location = (net.customers other).location := by
    intro other
    rw [same,Network.customers_draw,Network.customers_setNode,Network.customers_setCustomer]
    by_cases mine : other = c
    · subst mine
      rw [Function.update_self]
    · rw [Function.update_of_ne mine]
  have nodes : next.nodes = Function.update net.nodes n { net.nodes n with
      queue := (net.nodes n).queue.changed net.now contents ((net.nodes n).queue.pop + 1) } := by rw [same]; rfl
  have here : (next.nodes n).queue.contents = contents := by rw [nodes,Function.update_self]; rfl
  have elsewhere : ∀ m, m ≠ n → next.nodes m = net.nodes m := by
    intro m differs
    rw [nodes,Function.update_of_ne differs]
  have history : next.history = net.history := by rw [same]; rfl
  refine placed_transfer placed locations (by rw [same]; rfl) ?_ ?_ ?_ ?_ ?_ ?_ ?_
  · intro other
    have moved := waiting_enqueue at_n arranged locations here (fun m differs => by rw [elsewhere m differs]) other
    dsimp only [Floor.places]
    rw [moved,history,List.count_nil]
    omega
  · intro m other member
    by_cases node : m = n
    · subst node
      rw [here] at member
      rcases List.mem_cons.mp (arranged.subset member) with rfl | old
      · exact .inr at_n
      · exact .inl old
    · rw [elsewhere m node] at member
      exact .inl member
  · exact fun s member => .inl member
  · exact fun _ member => .inl (history ▸ member)
  · rw [history]
    exact (by rw [same]; rfl : next.completions = net.completions).trans placed.completions
  · exact fun _ member => .inl (history ▸ member)
  · intro m pool server alone
    rw [history,← placed.losses m pool server alone]
    by_cases node : m = n
    · subst node
      rw [nodes,Function.update_self]
    · rw [elsewhere m node]

/-- The first customer of the queue is served. -/
private theorem placed_handOver {time : ℚ} {diary : LinkedList Event} (placed : Placed config ⟨net,pending,[],r⟩)
    (dequeued : net.dequeue n = some (c,next)) (added : later.Perm (⟨c,n,time⟩ :: pending)) :
    Placed config ⟨(next.start c).scheduled diary,later,[],r'⟩ := by
  obtain ⟨rest,contents,-,same⟩ := dequeue_spec dequeued
  have at_n := placed.queued n c (by rw [contents]; exact List.mem_cons_self)
  have customers : next.customers = net.customers := by rw [same]; rfl
  have nodes : next.nodes = Function.update net.nodes n { net.nodes n with
      queue := { (net.nodes n).queue.changed net.now rest ((net.nodes n).queue.pop - 1) with
        queueingTime := (net.nodes n).queue.queueingTime.add (net.now - (net.customers c).queueInsertionTime) } } := by
    rw [same]
    rfl
  have here : (next.nodes n).queue.contents = rest := by rw [nodes,Function.update_self]; rfl
  have elsewhere : ∀ m, m ≠ n → next.nodes m = net.nodes m := by
    intro m differs
    rw [nodes,Function.update_of_ne differs]
  have history : next.history.completed = net.history.completed ∧ next.history.lost = net.history.lost ∧
      next.history.dropped = net.history.dropped := by
    rw [same]
    exact ⟨rfl,rfl,rfl⟩
  refine placed_transfer placed (fun c => by show (next.customers c).location = _; rw [customers])
    (by show next.customerId = _; rw [same]; rfl) ?_ ?_ ?_ ?_ ?_ ?_ ?_
  · intro other
    have moved : net.waiting other = next.waiting other + [c].count other :=
      @waiting_enqueue next net n c _ (by rw [customers]; exact at_n) (by rw [here,contents])
        (fun c => by rw [customers]) rfl (fun m differs => by rw [elsewhere m differs]) other
    dsimp only [Floor.places]
    rw [moved,added.countP_eq,countP_cons_customer]
    show next.waiting other + _ + _ + next.history.completed.count other + next.history.lost.count other +
      next.history.dropped.count other = _
    rw [history.1,history.2.1,history.2.2]
    dsimp only
    omega
  · intro m other member
    left
    by_cases node : m = n
    · subst node
      rw [contents]
      exact List.mem_cons_of_mem c (here ▸ member)
    · exact elsewhere m node ▸ member
  · exact served_serve at_n added
  · exact fun _ member => .inl (history.1 ▸ member)
  · show next.completions = next.history.completed.length
    rw [history.1]
    exact (by rw [same]; rfl : next.completions = net.completions).trans placed.completions
  · exact fun _ member => .inl (history.2.1 ▸ member)
  · intro m pool server alone
    show (next.nodes m).losses = next.history.lost.countP _
    rw [history.2.1,← placed.losses m pool server alone]
    by_cases node : m = n
    · subst node
      rw [nodes,Function.update_self]
    · rw [elsewhere m node]

private theorem count_fire {time : ℚ} (first : pending.Perm (⟨c,n,time⟩ :: later)) (other : ℕ) :
    later.countP (fun s => decide (s.customer = other)) + [c].count other =
      pending.countP (fun s => decide (s.customer = other)) + ([] : List ℕ).count other := by
  rw [first.countP_eq,countP_cons_customer]
  rfl

private theorem placed_drop {time : ℚ} (placed : Placed config ⟨net,pending,[],r⟩) (first : pending.Perm (⟨c,n,time⟩ :: later)) :
    Placed config ⟨net.drop (.endService c n),later,[],r⟩ := by
  refine placed_transfer placed (fun _ => rfl) rfl ?_ (fun _ _ member => .inl member)
    (fun s member => .inl (first.symm.subset (List.mem_cons_of_mem _ member))) (fun _ member => .inl member)
    placed.completions (fun _ member => .inl member) placed.losses
  intro other
  have fired := count_fire first other
  rw [List.count_nil] at fired
  have waiting : (net.drop (.endService c n)).waiting other = net.waiting other := rfl
  have dropped : (net.drop (.endService c n)).history.dropped = net.history.dropped ++ [c] := rfl
  dsimp only [Floor.places]
  rw [waiting,dropped,List.count_append,List.count_nil]
  show _ + _ + _ + net.history.completed.count other + net.history.lost.count other + _ = _
  omega

private theorem placed_complete (placed : Placed config ⟨net,pending,[c],r⟩) (at_n : (net.customers c).location = some n)
    (sink : kindOf config n = some .sink) : Placed config ⟨net.complete c,pending,[],r⟩ := by
  refine placed_transfer placed (fun _ => rfl) rfl ?_ (fun _ _ member => .inl member) (fun _ member => .inl member) ?_ ?_
    (fun _ member => .inl member) placed.losses
  · intro other
    have waiting : (net.complete c).waiting other = net.waiting other := rfl
    have completed : (net.complete c).history.completed = net.history.completed ++ [c] := rfl
    dsimp only [Floor.places]
    rw [waiting,completed,List.count_append,List.count_nil]
    show _ + _ + 0 + _ + net.history.lost.count other + net.history.dropped.count other = _
    omega
  · intro other member
    rcases List.mem_append.mp member with old | new
    · exact .inl old
    · obtain rfl := List.mem_singleton.mp new
      exact .inr ⟨n,at_n,sink⟩
  · show net.completions + 1 = (net.history.completed ++ [c]).length
    rw [List.length_append,placed.completions]
    rfl

private theorem placed_absorb {pool : Pool} (placed : Placed config ⟨net,pending,[c],r⟩)
    (at_n : (net.customers c).location = some n) (server : poolOf config n = some pool) (alone : pool.lossNode = none) :
    Placed config ⟨(net.lose n).absorb c,pending,[],r⟩ := by
  refine placed_transfer placed (fun _ => rfl) rfl ?_ ?_ (fun _ member => .inl member) (fun _ member => .inl member)
    placed.completions ?_ ?_
  · intro other
    have waiting : ((net.lose n).absorb c).waiting other = net.waiting other :=
      @waiting_congr net ((net.lose n).absorb c) (fun _ => rfl) (queue_setNode _ rfl) other
    dsimp only [Floor.places]
    rw [waiting]
    show _ + _ + _ + _ + (net.history.lost ++ [c]).count other + _ = _
    rw [List.count_append,List.count_nil]
    show _ + _ + 0 + net.history.completed.count other + _ + net.history.dropped.count other = _
    omega
  · intro m other member
    exact .inl ((queue_setNode { net.nodes n with losses := (net.nodes n).losses + 1 } rfl m) ▸ member)
  · intro other member
    rcases List.mem_append.mp member with old | new
    · exact .inl old
    · obtain rfl := List.mem_singleton.mp new
      exact .inr ⟨n,pool,at_n,server,alone⟩
  · intro m pool' server' alone'
    show ((net.lose n).nodes m).losses = (net.history.lost ++ [c]).countP _
    rw [List.countP_append,← placed.losses m pool' server' alone',Network.lose,Network.nodes_setNode]
    by_cases here : m = n
    · subst here
      rw [Function.update_self,List.countP_singleton,if_pos (by simpa using at_n)]
    · have elsewhere : (net.customers c).location ≠ some m := by
        rw [at_n]
        simpa using fun same => here same.symm
      rw [Function.update_of_ne here,List.countP_singleton,if_neg (by simpa using elsewhere)]
      rfl

theorem contents_resetMeasures (net : Network) (n : ℕ) :
    ((net.resetMeasures config).nodes n).queue.contents = (net.nodes n).queue.contents := by
  unfold Network.resetMeasures
  dsimp only
  split
  · rfl
  · rfl

/-- Every move keeps the customers in their places. -/
theorem placed_move {before after : Floor} (move : Move config samplers resets drops before after)
    (placed : Placed config before) : Placed config after := by
  cases move with
  | quiet nextId drawn same time =>
    refine placed_served placed rfl (fun _ => rfl) (fun _ => rfl) rfl rfl rfl rfl rfl ?_ fun s member => .inl (same.subset member)
    intro c
    rw [same.countP_eq]
  | @build net pending r type within =>
    refine placed_same placed (nowhere_fresh placed) (sameBut_buildCustomer _ type) (net.customerId + 1) ?_ ?_ rfl
    · rw [List.count_singleton_self,if_pos (Nat.lt_succ_self _)]
    · intro other differs
      refine ⟨List.count_nil,?_⟩
      omega
  | locate n c => exact placed_onward placed (sameBut_setLocation _ n c) rfl
  | sample n c => exact placed_onward placed (sameBut_sampleDemand _ n c) rfl
  | arrive n c => exact placed_onward placed (sameBut_arrive _ n c) rfl
  | complete at_n sink => exact placed_complete placed at_n sink
  | serve at_n server added =>
    exact placed_served placed rfl (fun _ => rfl) (fun _ => rfl) rfl rfl rfl rfl rfl (count_serve added)
      (served_serve at_n added)
  | claim at_n server claimed added =>
    exact placed_served placed rfl (queue_setNode _ rfl) (losses_setNode _ rfl) rfl rfl rfl rfl rfl (count_serve added)
      (served_serve at_n added)
  | enqueue at_n server busy enqueued => exact placed_enqueue placed at_n enqueued
  | absorb at_n server alone => exact placed_absorb placed at_n server alone
  | lose server passed => exact placed_onward placed (sameBut_lose server passed _) rfl
  | fire c n first =>
    refine placed_served placed rfl (fun _ => rfl) (fun _ => rfl) rfl rfl rfl rfl rfl (count_fire first) ?_
    exact fun s member => .inl (first.symm.subset (List.mem_cons_of_mem _ member))
  | @drop net pending later sim c n allowed first =>
    have quiet : Placed config ⟨net.quiet sim net.nextId net.drawn,pending,[],none⟩ := placed_served placed rfl
      (fun _ => rfl) (fun _ => rfl) rfl rfl rfl rfl rfl (fun _ => rfl) (fun _ member => .inl member)
    exact placed_drop quiet first
  | handOver server mine dequeued added => exact placed_handOver placed dequeued added
  | free server mine empty released =>
    exact placed_served placed rfl (queue_setNode _ rfl) (losses_setNode _ rfl) rfl rfl rfl rfl rfl (fun _ => rfl)
      fun _ member => .inl member
  | reset allowed =>
    refine placed_served placed rfl (contents_resetMeasures _) ?_ rfl rfl rfl rfl rfl (fun _ => rfl)
      fun _ member => .inl member
    · intro n
      unfold Network.resetMeasures
      dsimp only
      split
      · rfl
      · rfl

private theorem count_of_queued (placed : Placed config ⟨net,pending,hand,r⟩) (member : c ∈ (net.nodes n).queue.contents) :
    net.waiting c = (net.nodes n).queue.contents.count c ∧ 0 < (net.nodes n).queue.contents.count c := by
  have at_n := placed.queued n c member
  constructor
  · rw [Network.waiting,at_n,Option.elim_some]
  · exact List.count_pos_iff.mpr member

/-- A customer in a queue is there once and nowhere else. -/
theorem alone_of_queued (placed : Placed config ⟨net,pending,hand,r⟩) (member : c ∈ (net.nodes n).queue.contents) :
    (∀ s ∈ pending, s.customer ≠ c) ∧ c ∉ net.history.completed ∧ c < net.customerId ∧
      (net.nodes n).queue.contents.count c = 1 := by
  obtain ⟨waits,some⟩ := count_of_queued placed member
  have once := placed.once c
  dsimp only [Floor.places] at once
  by_cases known : c < net.customerId
  · rw [if_pos known] at once
    refine ⟨?_,List.count_eq_zero.mp (by omega),known,by omega⟩
    intro s inService same
    have counted : 0 < pending.countP fun s => decide (s.customer = c) :=
      List.countP_pos_iff.mpr ⟨s,inService,decide_eq_true same⟩
    omega
  · rw [if_neg known] at once
    omega

theorem undropped_of_queued (placed : Placed config ⟨net,pending,hand,r⟩) (member : c ∈ (net.nodes n).queue.contents) :
    c ∉ net.history.dropped := by
  obtain ⟨waits,some⟩ := count_of_queued placed member
  have once := placed.once c
  dsimp only [Floor.places] at once
  intro dropped
  have counted := List.count_pos_iff.mpr dropped
  split at once <;> omega

/-- A customer whose service is pending is in no queue and has one service. -/
theorem alone_of_first {s : Service} (placed : Placed config ⟨net,pending,hand,r⟩)
    (first : pending.Perm (s :: later)) :
    (∀ n, s.customer ∉ (net.nodes n).queue.contents) ∧ (∀ other ∈ later, other.customer ≠ s.customer) ∧
      s.customer ∉ net.history.completed ∧ s.customer < net.customerId := by
  have once := placed.once s.customer
  dsimp only [Floor.places] at once
  rw [first.countP_eq,countP_cons_customer,List.count_singleton_self] at once
  by_cases known : s.customer < net.customerId
  · rw [if_pos known] at once
    refine ⟨?_,?_,List.count_eq_zero.mp (by omega),known⟩
    · intro n member
      obtain ⟨waits,some⟩ := count_of_queued placed member
      omega
    · intro other member same
      have counted : 0 < later.countP fun other => decide (other.customer = s.customer) :=
        List.countP_pos_iff.mpr ⟨other,member,decide_eq_true same⟩
      omega
  · rw [if_neg known] at once
    omega

/-- Without an event that is not invoked nobody is dropped. -/
private theorem undropped_move {before after : Floor} (move : Move config samplers resets false before after)
    (undropped : before.net.history.dropped = []) : after.net.history.dropped = [] := by
  cases move with
  | enqueue at_n server busy enqueued =>
    obtain ⟨contents,-,-,rfl⟩ := enqueue_spec enqueued
    exact undropped
  | handOver server mine dequeued added =>
    obtain ⟨rest,-,-,rfl⟩ := dequeue_spec dequeued
    exact undropped
  | drop c n allowed first => cases allowed
  | quiet | build | locate | sample | arrive | complete | serve | claim | absorb | lose | fire | free | reset =>
    exact undropped

theorem empty_start (config : List Station) (n : ℕ) :
    ((Network.build config).nodes n).queue.contents = [] ∧ ((Network.build config).nodes n).losses = 0 := by
  unfold Network.build
  dsimp only
  cases config[n]? with
  | none => exact ⟨rfl,rfl⟩
  | some station =>
    rw [Option.elim_some,Station.build]
    cases station.kind.pool <;> exact ⟨rfl,rfl⟩

theorem placed_start : Placed config (floor (.build config) [] [] none) := by
  constructor
  case once =>
    intro c
    have notWaiting : (Network.build config).waiting c = 0 := rfl
    dsimp only [Floor.places,services_nil]
    rw [notWaiting]
    rfl
  case queued =>
    intro n c member
    rw [(empty_start config n).1] at member
    cases member
  case served | sinks | lost =>
    intro _ member
    cases member
  case completions => rfl
  case losses =>
    intro n pool server alone
    exact (empty_start config n).2

variable {depth : ℕ} {steps : List Step}

/-- In every state of a run every customer is in one place, and nobody is dropped unless `stop` says so after the clock
    has moved. -/
theorem customers_conserved (executed : run (step config samplers depth) (.build config) steps = some net) :
    Placed config (floor net net.sim.diary.contents [] none) ∧
      ((∀ stops, .iterate stops true ∉ steps) → net.history.dropped = []) := by
  constructor
  · obtain ⟨events,holds,placed⟩ := @invariant_of_moves config samplers true true depth _ net [] (Placed config)
      (fun _ _ => placed_move) steps (fun _ => rfl) (fun _ _ => rfl) holds_empty placed_start executed
    rwa [contents_eq holds]
  · intro unstopped
    obtain ⟨events,holds,undropped⟩ := @invariant_of_moves config samplers true false depth _ net []
      (fun f => f.net.history.dropped = []) (fun _ _ => undropped_move) steps (fun _ => rfl)
      (fun stops member => absurd member (unstopped stops)) holds_empty rfl executed
    exact undropped

/-- A desk with room for one to wait: 0 comes at 1 and is served until 4, 1 waits, 2 is lost. -/
def desk : List Station :=
  [⟨.source true,some (.link 1)⟩,⟨.queueingNode { noOfResources := 1,capacity := 1 },some (.link 2)⟩,⟨.sink,none⟩]

def daily : Samplers where
  delay _ _ := 1
  batchsize _ _ := 1
  serviceTime _ _ _ := 3
  branch _ _ := 0
  rand _ := 0

def morning : List Step := [.construct 0,.simulate none] ++ List.replicate 4 (.iterate false false)

theorem customers_conserved_desk : ∃ net, run (step desk daily 3) (.build desk) morning = some net ∧
    net.history.completed = [0] ∧ net.history.lost = [2] ∧ Placed desk (floor net net.sim.diary.contents [] none) := by
  obtain ⟨net,executed,checked⟩ := @exists_of_checked _ _ (step desk daily 3)
    (fun net => decide (net.history.completed = [0] ∧ net.history.lost = [2])) (.build desk) morning (by decide +kernel)
  obtain ⟨completed,lost⟩ := of_decide_eq_true checked
  exact ⟨net,executed,completed,lost,(customers_conserved executed).1⟩

end Places

end Vexjine.QueueingNetworks
