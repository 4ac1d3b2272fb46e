import Mathlib.Tactic.LinearCombination
import Vexjine.CustomerPlaces

/-!
# The time that a customer spends

A customer waits in queues or is served, and nothing else takes time: its time in the network is the sum of its
waiting times and of its demands.
-/

namespace Vexjine.QueueingNetworks
open Vexjine.Diary
open Vexjine.EventSimulation (Sim)
open Vexjine.Runs

/-- How long a customer has waited and been served. -/
def History.spent (history : History) (c : ℕ) : ℚ := history.waited c + history.served c

/-- The customers in queues and in service have spent their time up to then, the completed ones all of their time in the
    network, and the response times are the times that these have spent. -/
structure Settled (net : Network) (pending : List Service) : Prop where
  queued : ∀ n, ∀ c ∈ (net.nodes n).queue.contents,
    (net.customers c).queueInsertionTime - (net.customers c).arrivalTime = net.history.spent c
  served : ∀ s ∈ pending, net.history.started s.customer - (net.customers s.customer).arrivalTime =
    net.history.spent s.customer ∧ s.ends = net.history.started s.customer + (net.customers s.customer).serviceDemand
  finished : ∀ c ∈ net.history.completed, net.history.left c - (net.customers c).arrivalTime = net.history.spent c
  fresh : ∀ c, net.customerId ≤ c → net.history.spent c = 0
  counted : net.responseTime.n = net.history.completed.length
  moments : ∀ i, i = 1 ∨ i = 2 →
    net.responseTime.moment i = (net.history.completed.map fun c => net.history.spent c ^ i).sum

/-- The customer on its way has spent its time up to now. -/
structure Timed (f : Floor) : Prop extends Settled f.net f.services where
  moving : ∀ c ∈ f.hand, f.net.now - (f.net.customers c).arrivalTime = f.net.history.spent c

section Times
variable {config : List Station} {samplers : Samplers} {resets drops : Bool} {net next : Network}
  {pending later : List Service} {hand hand' : List ℕ} {r r' : Option ℕ} {n c : ℕ}

/-- The times of the other customers are as they were. -/
private structure SameTimes (net next : Network) (c : ℕ) : Prop where
  customers : ∀ other, other ≠ c → (next.customers other).arrivalTime = (net.customers other).arrivalTime ∧
    (next.customers other).queueInsertionTime = (net.customers other).queueInsertionTime ∧
    (next.customers other).serviceDemand = (net.customers other).serviceDemand
  started : ∀ other, other ≠ c → next.history.started other = net.history.started other
  spent : ∀ other, other ≠ c → next.history.spent other = net.history.spent other
  left : next.history.left = net.history.left
  completed : next.history.completed = net.history.completed
  responseTime : next.responseTime = net.responseTime
  customerId : net.customerId ≤ next.customerId

/-- A move of one customer, who was not completed, settles the network if that customer's times are right. -/
private theorem settled_same (settled : Settled net pending) (same : SameTimes net next c)
    (uncompleted : c ∉ net.history.completed) (known : c < next.customerId)
    (queues : ∀ n, ∀ other ∈ (next.nodes n).queue.contents, other ≠ c → other ∈ (net.nodes n).queue.contents)
    (services : ∀ s ∈ later, s.customer ≠ c → s ∈ pending)
    (queued : ∀ n, c ∈ (next.nodes n).queue.contents →
      (next.customers c).queueInsertionTime - (next.customers c).arrivalTime = next.history.spent c)
    (served : ∀ s ∈ later, s.customer = c → next.history.started c - (next.customers c).arrivalTime =
      next.history.spent c ∧ s.ends = next.history.started c + (next.customers c).serviceDemand) : Settled next later where
  queued n other member := by
    by_cases mine : other = c
    · subst mine
      exact queued n member
    · obtain ⟨arrival,insertion,-⟩ := same.customers other mine
      rw [arrival,insertion,same.spent other mine]
      exact settled.queued n other (queues n other member mine)
  served s member := by
    by_cases mine : s.customer = c
    · have right := served s member mine
      rw [mine]
      exact right
    · obtain ⟨arrival,-,demand⟩ := same.customers s.customer mine
      rw [arrival,demand,same.started s.customer mine,same.spent s.customer mine]
      exact settled.served s (services s member mine)
  finished other member := by
    rw [same.completed] at member
    have differs : other ≠ c := by
      rintro rfl
      exact uncompleted member
    rw [same.left,(same.customers other differs).1,same.spent other differs]
    exact settled.finished other member
  fresh other new := by
    have differs : other ≠ c := by omega
    rw [same.spent other differs]
    exact settled.fresh other (same.customerId.trans new)
  counted := by
    rw [same.responseTime,same.completed]
    exact settled.counted
  moments i which := by
    rw [same.responseTime,same.completed,settled.moments i which]
    congr 1
    apply List.map_congr_left
    intro other member
    have differs : other ≠ c := by
      rintro rfl
      exact uncompleted member
    rw [same.spent other differs]

/-- Nobody's times change. -/
private theorem settled_frame (settled : Settled net pending) (customers : next.customers = net.customers)
    (history : next.history.started = net.history.started ∧ next.history.waited = net.history.waited ∧
      next.history.served = net.history.served ∧ next.history.left = net.history.left ∧
      next.history.completed = net.history.completed)
    (responseTime : next.responseTime = net.responseTime) (customerId : next.customerId = net.customerId)
    (queues : ∀ n, (next.nodes n).queue.contents = (net.nodes n).queue.contents) (services : ∀ s ∈ later, s ∈ pending) :
    Settled next later := by
  obtain ⟨started,waited,served,left,completed⟩ := history
  have spent : next.history.spent = net.history.spent := by
    funext c
    rw [History.spent,History.spent,waited,served]
  constructor
  case queued =>
    intro n c member
    rw [customers,spent]
    exact settled.queued n c (queues n ▸ member)
  case served =>
    intro s member
    rw [customers,spent,started]
    exact settled.served s (services s member)
  case finished =>
    intro c member
    rw [customers,spent,left]
    exact settled.finished c (completed ▸ member)
  case fresh =>
    intro c new
    rw [spent]
    exact settled.fresh c (customerId ▸ new)
  case counted =>
    rw [responseTime,completed]
    exact settled.counted
  case moments =>
    rw [responseTime,completed,spent]
    exact settled.moments

private theorem sameTimes_customer {customer : Customer} (net : Network) (c : ℕ) :
    SameTimes net (net.setCustomer c customer) c where
  customers other differs := by
    rw [Network.customers_setCustomer,Function.update_of_ne differs]
    exact ⟨rfl,rfl,rfl⟩
  started _ _ := rfl
  spent _ _ := rfl
  left := rfl
  completed := rfl
  responseTime := rfl
  customerId := le_rfl

/-- Something about a customer on its way changes that is neither its arrival nor a time spent. -/
private theorem timed_onward {customer : Customer} (placed : Placed config ⟨net,pending,[c],r⟩)
    (timed : Timed ⟨net,pending,[c],r⟩) (customers : next.customers = (net.setCustomer c customer).customers)
    (arrival : customer.arrivalTime = (net.customers c).arrivalTime) (history : next.history = net.history)
    (responseTime : next.responseTime = net.responseTime) (counted : next.customerId = net.customerId)
    (queues : ∀ n, (next.nodes n).queue.contents = (net.nodes n).queue.contents) (time : next.now = net.now) :
    Timed ⟨next,pending,[c],r'⟩ := by
  obtain ⟨nowhere,known⟩ := nowhere_of_hand placed
  have same : SameTimes net next c := by
    constructor
    case customers =>
      rw [customers]
      exact (sameTimes_customer net c).customers
    case started => exact fun _ _ => by rw [history]
    case spent => exact fun _ _ => by rw [history]
    case left => rw [history]
    case completed => rw [history]
    case responseTime => exact responseTime
    case customerId => exact counted.ge
  refine ⟨settled_same timed.toSettled same nowhere.completed (counted ▸ known) ?_ (fun _ member _ => member) ?_ ?_,?_⟩
  · intro n other member _
    exact queues n ▸ member
  · intro n member
    exact absurd (queues n ▸ member) (nowhere.queued n)
  · intro s member mine
    exact absurd mine (nowhere.served s member)
  · intro other member
    obtain rfl := List.mem_singleton.mp member
    show next.now - (next.customers other).arrivalTime = next.history.spent other
    rw [time,customers,Network.customers_setCustomer,Function.update_self,arrival,history]
    exact timed.moving other member

private theorem timed_build {type : ℤ} (placed : Placed config ⟨net,pending,[],r⟩) (timed : Timed ⟨net,pending,[],r⟩) :
    Timed ⟨net.buildCustomer type,pending,[net.customerId],r⟩ := by
  have nowhere := nowhere_fresh placed
  have same : SameTimes net (net.buildCustomer type) net.customerId :=
    { sameTimes_customer net net.customerId with customerId := Nat.le_succ net.customerId }
  refine ⟨settled_same timed.toSettled same nowhere.completed (Nat.lt_succ_self _) (fun _ _ member _ => member)
    (fun _ member _ => member) ?_ ?_,?_⟩
  · intro n member
    exact absurd member (nowhere.queued n)
  · intro s member mine
    exact absurd mine (nowhere.served s member)
  · intro other member
    obtain rfl := List.mem_singleton.mp member
    show net.now - ((Function.update net.customers net.customerId _) net.customerId).arrivalTime =
      net.history.spent net.customerId
    rw [Function.update_self,timed.fresh _ le_rfl]
    exact sub_self net.now

private theorem timed_complete (placed : Placed config ⟨net,pending,[c],r⟩) (timed : Timed ⟨net,pending,[c],r⟩) :
    Timed ⟨net.complete c,pending,[],r⟩ := by
  have spent := timed.moving c List.mem_cons_self
  dsimp only at spent
  refine ⟨⟨timed.queued,timed.served,?_,timed.fresh,?_,?_⟩,?_⟩
  · intro other member
    show Function.update net.history.left c net.now other - (net.customers other).arrivalTime = net.history.spent other
    rcases List.mem_append.mp member with before | last
    · have differs : other ≠ c := by
        rintro rfl
        exact (nowhere_of_hand placed).1.completed before
      rw [Function.update_of_ne differs]
      exact timed.finished other before
    · obtain rfl := List.mem_singleton.mp last
      rw [Function.update_self]
      exact spent
  · show net.responseTime.n + 1 = (net.history.completed ++ [c]).length
    rw [timed.counted,List.length_append]
    rfl
  · intro i which
    show (net.responseTime.add _).moment i = ((net.history.completed ++ [c]).map fun c => net.history.spent c ^ i).sum
    have within : 1 ≤ i ∧ i ≤ 2 := by omega
    rw [CustomerMeasure.add]
    dsimp only
    rw [if_pos within,spent,timed.moments i which,List.map_append,List.sum_append,List.map_singleton,List.sum_singleton]
  · intro other member
    cases member

/-- A customer on its way is served from now on. -/
private theorem timed_serve (placed : Placed config ⟨net,pending,[c],r⟩) (timed : Timed ⟨net,pending,[c],r⟩)
    (added : later.Perm (⟨c,n,net.now + (net.customers c).serviceDemand⟩ :: pending))
    (customers : next.customers = net.customers) (history : next.history = (net.start c).history)
    (responseTime : next.responseTime = net.responseTime) (counted : next.customerId = net.customerId)
    (queues : ∀ n, (next.nodes n).queue.contents = (net.nodes n).queue.contents) : Timed ⟨next,later,[],r'⟩ := by
  obtain ⟨nowhere,known⟩ := nowhere_of_hand placed
  have spent : next.history.spent = net.history.spent := by
    rw [history]
    rfl
  have started : next.history.started = Function.update net.history.started c net.now := by
    rw [history]
    rfl
  have same : SameTimes net next c := by
    constructor
    case customers =>
      rw [customers]
      exact fun _ _ => ⟨rfl,rfl,rfl⟩
    case started =>
      intro other differs
      rw [started,Function.update_of_ne differs]
    case spent => exact fun _ _ => by rw [spent]
    case left =>
      rw [history]
      rfl
    case completed =>
      rw [history]
      rfl
    case responseTime => exact responseTime
    case customerId => exact counted.ge
  refine ⟨settled_same timed.toSettled same nowhere.completed (counted ▸ known) ?_ ?_ ?_ ?_,?_⟩
  · intro n other member _
    exact queues n ▸ member
  · intro s member differs
    rcases List.mem_cons.mp (added.subset member) with rfl | old
    · exact absurd rfl differs
    · exact old
  · intro n member
    exact absurd (queues n ▸ member) (nowhere.queued n)
  · intro s member mine
    rcases List.mem_cons.mp (added.subset member) with rfl | old
    · rw [started,Function.update_self,customers,spent]
      exact ⟨timed.moving c List.mem_cons_self,rfl⟩
    · exact absurd mine (nowhere.served s old)
  · intro other member
    cases member

private theorem timed_enqueue {discipline : Discipline} (placed : Placed config ⟨net,pending,[c],r⟩)
    (timed : Timed ⟨net,pending,[c],r⟩) (enqueued : net.enqueue samplers discipline n c = some next) :
    Timed ⟨next,pending,[],r⟩ := by
  obtain ⟨nowhere,known⟩ := nowhere_of_hand placed
  obtain ⟨contents,arranged,-,rfl⟩ := enqueue_spec enqueued
  refine ⟨@settled_same _ _ _ _ c timed.toSettled ?_ nowhere.completed known ?_ (fun _ member _ => member) ?_ ?_,?_⟩
  · exact { sameTimes_customer net c with }
  · intro m other member differs
    by_cases here : m = n
    · subst here
      have inside : other ∈ contents := by
        rwa [Network.nodes_draw,Network.nodes_setNode,Function.update_self] at member
      rcases List.mem_cons.mp (arranged.subset inside) with rfl | old
      · exact absurd rfl differs
      · exact old
    · rwa [Network.nodes_draw,Network.nodes_setNode,Function.update_of_ne here] at member
  · intro m member
    rw [Network.customers_draw,Network.customers_setNode,Network.customers_setCustomer,Function.update_self]
    exact timed.moving c List.mem_cons_self
  · intro s member mine
    exact absurd mine (nowhere.served s member)
  · intro other member
    cases member

/-- The end of a service: what was left of the demand has been served since the service began. -/
private theorem timed_fire {sim : Sim Event ℚ} (placed : Placed config ⟨net,pending,[],none⟩)
    (timed : Timed ⟨net,pending,[],none⟩) (first : pending.Perm (⟨c,n,sim.vtime⟩ :: later)) :
    Timed ⟨(net.quiet sim net.nextId net.drawn).serves n c,later,[c],r⟩ := by
  obtain ⟨unqueued,single,uncompleted,known⟩ := alone_of_first placed first
  dsimp only at unqueued single uncompleted known
  have member : (⟨c,n,sim.vtime⟩ : Service) ∈ pending := first.symm.subset List.mem_cons_self
  obtain ⟨spent,ends⟩ := timed.served _ member
  dsimp only at spent ends
  have differs : ∀ other, other ≠ c → ((net.quiet sim net.nextId net.drawn).serves n c).history.spent other =
      net.history.spent other := by
    intro other differs
    show net.history.waited other + Function.update net.history.served c _ other = _
    rw [Function.update_of_ne differs]
    rfl
  refine ⟨@settled_same _ _ _ _ c timed.toSettled ?_ uncompleted known (fun _ _ member _ => member) ?_ ?_ ?_,?_⟩
  · exact ⟨fun _ _ => ⟨rfl,rfl,rfl⟩,fun _ _ => rfl,differs,rfl,rfl,rfl,le_rfl⟩
  · exact fun s member _ => first.symm.subset (List.mem_cons_of_mem _ member)
  · intro m member
    exact absurd member (unqueued m)
  · intro s member mine
    exact absurd mine (single s member)
  · intro other member
    obtain rfl := List.mem_singleton.mp member
    show sim.vtime - (net.customers other).arrivalTime = net.history.waited other +
      Function.update net.history.served other (net.history.served other + (net.customers other).serviceDemand) other
    rw [Function.update_self,← add_assoc]
    show _ = net.history.spent other + _
    linear_combination spent + ends

private theorem timed_handOver {diary : LinkedList Event} (placed : Placed config ⟨net,pending,[],r⟩)
    (timed : Timed ⟨net,pending,[],r⟩) (dequeued : net.dequeue n = some (c,next))
    (added : later.Perm (⟨c,n,net.now + (net.customers c).serviceDemand⟩ :: pending)) :
    Timed ⟨(next.start c).scheduled diary,later,[],r'⟩ := by
  obtain ⟨rest,contents,-,same⟩ := dequeue_spec dequeued
  have member : c ∈ (net.nodes n).queue.contents := contents ▸ List.mem_cons_self
  obtain ⟨unserved,uncompleted,known,single⟩ := alone_of_queued placed member
  have waited := timed.queued n c member
  dsimp only at waited
  have customers : next.customers = net.customers := by rw [same]; rfl
  have now : next.now = net.now := by rw [same]; rfl
  have history : next.history.started = net.history.started ∧ next.history.left = net.history.left ∧
      next.history.completed = net.history.completed ∧
      next.history.waited = Function.update net.history.waited c
        (net.history.waited c + (net.now - (net.customers c).queueInsertionTime)) ∧
      next.history.served = net.history.served := by
    rw [same]
    exact ⟨rfl,rfl,rfl,rfl,rfl⟩
  obtain ⟨started,left,completed,waiting,served⟩ := history
  have spent : ((next.start c).scheduled diary).history.spent c = net.now - (net.customers c).arrivalTime := by
    show next.history.waited c + next.history.served c = _
    rw [waiting,served,Function.update_self]
    rw [History.spent] at waited
    linear_combination -waited
  have queues : ∀ m, ∀ other ∈ (next.nodes m).queue.contents, other ∈ (net.nodes m).queue.contents ∧ other ≠ c := by
    intro m other inside
    by_cases here : m = n
    · subst here
      have later : other ∈ rest := by
        rw [same] at inside
        simpa [Network.waits,Queue.changed] using inside
      rw [contents,List.count_cons_self] at single
      have absent : c ∉ rest := List.count_eq_zero.mp (by omega)
      refine ⟨contents ▸ List.mem_cons_of_mem c later,?_⟩
      rintro rfl
      exact absent later
    · have old : other ∈ (net.nodes m).queue.contents := by
        rw [same] at inside
        simpa [Network.waits,Function.update_of_ne here] using inside
      refine ⟨old,?_⟩
      rintro rfl
      have at_m := placed.queued m _ old
      rw [placed.queued n _ member,Option.some.injEq] at at_m
      exact here at_m.symm
  refine ⟨@settled_same _ _ _ _ c timed.toSettled ?_ uncompleted ?_ ?_ ?_ ?_ ?_,?_⟩
  · refine ⟨?_,?_,?_,left,completed,(by rw [same]; rfl : next.responseTime = net.responseTime),
      (by rw [same]; rfl : next.customerId = net.customerId).ge⟩
    · intro other _
      show (next.customers other).arrivalTime = _ ∧ (next.customers other).queueInsertionTime = _ ∧
        (next.customers other).serviceDemand = _
      rw [customers]
      exact ⟨rfl,rfl,rfl⟩
    · intro other differs
      show Function.update next.history.started c next.now other = _
      rw [Function.update_of_ne differs,started]
    · intro other differs
      show next.history.waited other + next.history.served other = _
      rw [waiting,served,Function.update_of_ne differs]
      rfl
  · exact (by rw [same]; rfl : next.customerId = net.customerId) ▸ known
  · exact fun m other inside _ => (queues m other inside).1
  · intro s inside differs
    rcases List.mem_cons.mp (added.subset inside) with rfl | old
    · exact absurd rfl differs
    · exact old
  · intro m inside
    exact absurd rfl (queues m c inside).2
  · intro s inside mine
    rcases List.mem_cons.mp (added.subset inside) with rfl | old
    · show Function.update next.history.started c next.now c - (next.customers c).arrivalTime = _ ∧
        _ = Function.update next.history.started c next.now c + (next.customers c).serviceDemand
      rw [Function.update_self,now,customers,spent]
      exact ⟨rfl,rfl⟩
    · exact absurd mine (unserved s old)
  · intro other inside
    cases inside

/-- Every move accounts for the time that customers spend. -/
theorem timed_move {before after : Floor} (move : Move config samplers resets drops before after)
    (placed : Placed config before) (timed : Timed before) : Timed after := by
  cases move with
  | quiet nextId drawn same time =>
    refine ⟨settled_frame timed.toSettled rfl ⟨rfl,rfl,rfl,rfl,rfl⟩ rfl rfl (fun _ => rfl) fun s member => same.subset member,?_⟩
    intro c member
    rcases time with ⟨nobody,-⟩ | still
    · rw [nobody] at member
      cases member
    · exact (congrArg (· - _) still).trans (timed.moving c member)
  | build within => exact timed_build placed timed
  | locate n c => exact timed_onward placed timed rfl rfl rfl rfl rfl (fun _ => rfl) rfl
  | sample n c => exact timed_onward placed timed rfl rfl rfl rfl rfl (fun _ => rfl) rfl
  | arrive n c => exact timed_onward placed timed rfl rfl rfl rfl rfl (queue_setNode _ rfl) rfl
  | complete at_n sink => exact timed_complete placed timed
  | serve at_n server added => exact timed_serve placed timed added rfl rfl rfl rfl fun _ => rfl
  | claim at_n server claimed added => exact timed_serve placed timed added rfl rfl rfl rfl (queue_setNode _ rfl)
  | enqueue at_n server busy enqueued => exact timed_enqueue placed timed enqueued
  | absorb at_n server alone =>
    refine ⟨settled_frame timed.toSettled rfl ⟨rfl,rfl,rfl,rfl,rfl⟩ rfl rfl (queue_setNode _ rfl) fun _ member => member,?_⟩
    intro other member
    cases member
  | lose server passed =>
    exact ⟨settled_frame timed.toSettled rfl ⟨rfl,rfl,rfl,rfl,rfl⟩ rfl rfl (queue_setNode _ rfl) fun _ member => member,
      timed.moving⟩
  | fire c n first => exact timed_fire placed timed first
  | drop c n allowed first =>
    refine ⟨settled_frame timed.toSettled rfl ⟨rfl,rfl,rfl,rfl,rfl⟩ rfl rfl (fun _ => rfl) ?_,?_⟩
    · exact fun s member => first.symm.subset (List.mem_cons_of_mem _ member)
    · intro other member
      cases member
  | handOver server mine dequeued added => exact timed_handOver placed timed dequeued added
  | free server mine empty released =>
    refine ⟨settled_frame timed.toSettled rfl ⟨rfl,rfl,rfl,rfl,rfl⟩ rfl rfl (queue_setNode _ rfl) fun _ member => member,?_⟩
    intro other member
    cases member
  | reset allowed =>
    refine ⟨settled_frame timed.toSettled rfl ⟨rfl,rfl,rfl,rfl,rfl⟩ rfl rfl (contents_resetMeasures _) fun _ member => member,?_⟩
    intro other member
    cases member

private theorem timed_start : Timed (floor (.build config) [] [] none) := by
  have nobody : ∀ n, ((Network.build config).nodes n).queue.contents = [] := (empty_start config · |>.1)
  constructor
  · constructor
    case queued =>
      intro n c member
      rw [nobody] at member
      cases member
    case served =>
      intro s member
      cases member
    case finished =>
      intro c member
      cases member
    case fresh =>
      intro c _
      exact add_zero 0
    case counted => rfl
    case moments => exact fun _ _ => rfl
  · intro c member
    cases member

/-- Every move keeps the places and the times. -/
theorem kept_move {before after : Floor} (move : Move config samplers resets drops before after)
    (kept : Placed config before ∧ Timed before) : Placed config after ∧ Timed after :=
  ⟨placed_move move kept.1,timed_move move kept.1 kept.2⟩

theorem kept_start : Placed config (floor (.build config) [] [] none) ∧ Timed (floor (.build config) [] [] none) :=
  ⟨placed_start,timed_start⟩

variable {depth : ℕ} {steps : List Step}

/-- In every state of a run a customer has waited and been served for as long as it was in the network, before it
    joined its queue or its service began or until a sink took it, and the time in the network that is reported is the
    mean over the completed customers of their waiting times and demands. -/
theorem response_times_split (executed : run (step config samplers depth) (.build config) steps = some net) :
    Settled net (services net.sim.diary.contents) ∧ (net.history.completed ≠ [] → net.responseTime.mean =
      some ((net.history.completed.map net.history.spent).sum / net.history.completed.length)) := by
  obtain ⟨events,holds,-,timed⟩ := @invariant_of_moves config samplers true true depth _ net []
    (fun f => Placed config f ∧ Timed f) (fun _ _ => kept_move) steps (fun _ => rfl) (fun _ _ => rfl) holds_empty kept_start
    executed
  rw [contents_eq holds]
  refine ⟨timed.toSettled,?_⟩
  intro some
  have positive : net.history.completed.length ≠ 0 := fun none => some (List.length_eq_zero_iff.mp none)
  have first := timed.moments 1 (.inl rfl)
  simp only [pow_one] at first
  rw [CustomerMeasure.mean,timed.counted,if_neg positive,first]

/-- Customer 1 waits from 2 to 4 and is served until 7. -/
def noon : List Step := morning ++ List.replicate 6 (.iterate false false)

theorem response_times_split_desk : ∃ net, run (step desk daily 3) (.build desk) noon = some net ∧
    net.history.completed = [0,1] ∧ net.history.waited 1 = 2 ∧ net.history.served 1 = 3 ∧ net.responseTime.mean = some 4 ∧
      net.history.left 1 - (net.customers 1).arrivalTime = net.history.spent 1 ∧
      net.responseTime.mean = some ((net.history.completed.map net.history.spent).sum / net.history.completed.length) := by
  obtain ⟨net,executed,checked⟩ := @exists_of_checked _ _ (step desk daily 3)
    (fun net => decide (net.history.completed = [0,1] ∧ net.history.waited 1 = 2 ∧ net.history.served 1 = 3 ∧
      net.responseTime.mean = some 4)) (.build desk) noon (by decide +kernel)
  obtain ⟨completed,waited,served,mean⟩ := of_decide_eq_true checked
  obtain ⟨settled,average⟩ := response_times_split executed
  refine ⟨net,executed,completed,waited,served,mean,settled.finished 1 ?_,average ?_⟩
  · rw [completed]
    simp
  · rw [completed]
    simp

end Times

end Vexjine.QueueingNetworks
