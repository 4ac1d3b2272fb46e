import Vexjine.CustomerTimes
import Vexjine.Areas

/-!
# The measures of a pool

A move changes a pool in one of a few ways. So nobody waits while a resource is free, and the two measures of the queue
and those of the resources agree with the stays of the customers.
-/

namespace Vexjine.QueueingNetworks
open Vexjine.Diary
open Vexjine.EventSimulation (Sim)
open Vexjine.SystemMeasures (SystemMeasure)
open Vexjine.Runs
open Vexjine.Sojourns

/-- Who has a resource of a node: the customers whose service is pending there, and those whose end of service was not
    invoked. -/
def inService (net : Network) (pending : List Service) (n : ℕ) : List ℕ :=
  (pending.filter fun s => decide (s.node = n)).map Service.customer ++
    net.history.dropped.filter fun c => decide ((net.customers c).location = some n)

/-- What concerns a pool: since when its customers have been in the queue, since when its resources have been in use,
    and the demands that were served. -/
structure View where
  queue : Queue
  resources : Resource
  insertions : List ℚ
  starts : List ℚ
  worked : ℚ

def Network.insertions (net : Network) (n : ℕ) : List ℚ :=
  (net.nodes n).queue.contents.map fun c => (net.customers c).queueInsertionTime

/-- A resource whose customer has left the node is in use until it is released. -/
def Floor.starts (f : Floor) (n : ℕ) : List ℚ :=
  (inService f.net f.services n).map f.net.history.started ++ if f.releasing = some n then [f.net.now] else []

def Floor.view (f : Floor) (n : ℕ) : View where
  queue := (f.net.nodes n).queue
  resources := (f.net.nodes n).resources
  insertions := f.net.insertions n
  starts := f.starts n
  worked := f.net.history.worked n

/-- What a move does to a pool. The resources of a node that does not release them by itself are used by whoever it
    is; then only their number is followed. -/
inductive Change (resets releases : Bool) : View → View → Prop
  | same {before after : View} (queue : after.queue = before.queue) (resources : after.resources = before.resources)
      (insertions : after.insertions = before.insertions) (starts : releases = true → after.starts.Perm before.starts)
      (worked : releases = true → after.worked = before.worked) : Change resets releases before after
  | enqueue {before after : View} {now : ℚ} {contents : List ℕ} (busy : before.resources.resources ≤ 0)
      (room : before.queue.pop < before.queue.capacity) (longer : contents.length = before.queue.contents.length + 1)
      (queue : after.queue = before.queue.changed now contents (before.queue.pop + 1))
      (resources : after.resources = before.resources) (insertions : after.insertions.Perm (now :: before.insertions))
      (starts : after.starts = before.starts) (worked : after.worked = before.worked) : Change resets releases before after
  | handOver {before after : View} {now insertion : ℚ} {c : ℕ} {rest : List ℕ} (contents : before.queue.contents = c :: rest)
      (queue : after.queue = { before.queue.changed now rest (before.queue.pop - 1) with
        queueingTime := before.queue.queueingTime.add (now - insertion) }) (resources : after.resources = before.resources)
      (insertions : before.insertions = insertion :: after.insertions)
      (starts : releases = true → after.starts.Perm before.starts) (worked : after.worked = before.worked) :
      Change resets releases before after
  | claim {before after : View} {now : ℚ} (available : 0 < before.resources.resources) (queue : after.queue = before.queue)
      (resources : after.resources = before.resources.changed now (before.resources.resources - 1))
      (insertions : after.insertions = before.insertions) (starts : after.starts.Perm (now :: before.starts))
      (worked : after.worked = before.worked) : Change resets releases before after
  | fire {before after : View} {rest : List ℚ} {start now : ℚ} (queue : after.queue = before.queue)
      (resources : after.resources = before.resources) (insertions : after.insertions = before.insertions)
      (served : before.starts.Perm (start :: rest)) (starts : after.starts.Perm (now :: rest))
      (worked : after.worked = before.worked + (now - start)) : Change resets releases before after
  | free {before after : View} {now : ℚ} (empty : before.queue.pop = 0)
      (claimed : before.resources.resources < before.resources.nresources) (queue : after.queue = before.queue)
      (resources : after.resources = before.resources.changed now (before.resources.resources + 1))
      (insertions : after.insertions = before.insertions)
      (starts : releases = true → before.starts.Perm (now :: after.starts)) (worked : after.worked = before.worked) :
      Change resets releases before after
  | reset {before after : View} {now : ℚ} (allowed : resets = true) (queue : after.queue = before.queue.resetMeasures now)
      (resources : after.resources = before.resources.resetMeasures now) (insertions : after.insertions = before.insertions)
      (starts : after.starts = before.starts) (worked : after.worked = before.worked) : Change resets releases before after

section Changes
variable {config : List Station} {samplers : Samplers} {resets drops : Bool} {net next : Network}
  {pending later : List Service} {hand hand' : List ℕ} {r r' : Option ℕ} {n m c : ℕ}

theorem inService_perm (net : Network) (arranged : later.Perm pending) (n : ℕ) :
    (inService net later n).Perm (inService net pending n) :=
  ((arranged.filter _).map _).append_right _

theorem inService_cons (net : Network) (s : Service) (pending : List Service) (n : ℕ) :
    inService net (s :: pending) n = if s.node = n then s.customer :: inService net pending n else inService net pending n := by
  unfold inService
  by_cases here : s.node = n
  · rw [if_pos here,List.filter_cons_of_pos (by simpa using here),List.map_cons,List.cons_append]
  · rw [if_neg here,List.filter_cons_of_neg (by simpa using here)]

/-- The same customers have the resources. -/
private theorem inService_congr (dropped : next.history.dropped = net.history.dropped)
    (locations : ∀ c ∈ net.history.dropped, (next.customers c).location = (net.customers c).location)
    (pending : List Service) (n : ℕ) : inService next pending n = inService net pending n := by
  unfold inService
  rw [dropped]
  congr 1
  apply List.filter_congr
  intro c member
  rw [locations c member]

/-- A customer that is in no place has no resource. -/
private theorem Nowhere.absent (nowhere : Nowhere net pending c) (n : ℕ) : c ∉ inService net pending n := by
  intro member
  rcases List.mem_append.mp member with serving | dropped
  · obtain ⟨s,inside,same⟩ := List.mem_map.mp serving
    exact nowhere.served s (List.mem_of_mem_filter inside) same
  · exact nowhere.dropped (List.mem_of_mem_filter dropped)

/-- Neither has one that is in a queue. -/
private theorem absent_of_queued (placed : Placed config ⟨net,pending,hand,r⟩) (queued : c ∈ (net.nodes n).queue.contents)
    (m : ℕ) : c ∉ inService net pending m := by
  obtain ⟨unserved,-,-,-⟩ := alone_of_queued placed queued
  intro member
  rcases List.mem_append.mp member with serving | dropped
  · obtain ⟨s,inside,same⟩ := List.mem_map.mp serving
    exact unserved s (List.mem_of_mem_filter inside) same
  · exact undropped_of_queued placed queued (List.mem_of_mem_filter dropped)

private theorem queueOf_setNode (node : Node) (same : node.queue = (net.nodes n).queue) (m : ℕ) :
    ((net.setNode n node).nodes m).queue = (net.nodes m).queue := by
  rw [Network.nodes_setNode]
  by_cases here : m = n
  · subst here
    rw [Function.update_self,same]
  · rw [Function.update_of_ne here]

private theorem resourcesOf_setNode (node : Node) (same : node.resources = (net.nodes n).resources) (m : ℕ) :
    ((net.setNode n node).nodes m).resources = (net.nodes m).resources := by
  rw [Network.nodes_setNode]
  by_cases here : m = n
  · subst here
    rw [Function.update_self,same]
  · rw [Function.update_of_ne here]

private theorem map_update {c : ℕ} {customers : List ℕ} (absent : c ∉ customers) (f : ℕ → ℚ) (time : ℚ) :
    customers.map (Function.update f c time) = customers.map f := by
  apply List.map_congr_left
  intro other member
  have differs : other ≠ c := by
    rintro rfl
    exact absent member
  rw [Function.update_of_ne differs]

/-- A move that has nothing to do with the pool. -/
private theorem change_same {releases : Bool} (queue : (next.nodes n).queue = (net.nodes n).queue)
    (resources : (next.nodes n).resources = (net.nodes n).resources)
    (insertions : ∀ c ∈ (net.nodes n).queue.contents,
      (next.customers c).queueInsertionTime = (net.customers c).queueInsertionTime)
    (starts : releases = true → (Floor.starts ⟨next,later,hand',r'⟩ n).Perm (Floor.starts ⟨net,pending,hand,r⟩ n))
    (worked : releases = true → next.history.worked n = net.history.worked n) :
    Change resets releases (Floor.view ⟨net,pending,hand,r⟩ n) (Floor.view ⟨next,later,hand',r'⟩ n) := by
  refine .same queue resources ?_ starts worked
  show (next.nodes n).queue.contents.map _ = (net.nodes n).queue.contents.map _
  rw [queue]
  apply List.map_congr_left
  exact insertions

/-- No resource is claimed or released, and no service begins. -/
private theorem starts_same (arranged : later.Perm pending) (started : next.history.started = net.history.started)
    (dropped : next.history.dropped = net.history.dropped)
    (locations : ∀ c ∈ net.history.dropped, (next.customers c).location = (net.customers c).location)
    (time : r = none ∨ next.now = net.now) (n : ℕ) :
    (Floor.starts ⟨next,later,hand',r⟩ n).Perm (Floor.starts ⟨net,pending,hand,r⟩ n) := by
  unfold Floor.starts
  dsimp only
  rw [started,inService_congr dropped locations]
  refine ((inService_perm net arranged n).map _).append ?_
  rcases time with nothing | still
  · rw [nothing]
    exact .refl _
  · rw [still]

/-- A customer on its way changes, and no pool does. -/
private theorem change_onward {releases : Bool} {customer : Customer} (placed : Placed config ⟨net,pending,[c],r⟩)
    (customers : next.customers = (net.setCustomer c customer).customers) (history : next.history = net.history)
    (queue : (next.nodes n).queue = (net.nodes n).queue) (resources : (next.nodes n).resources = (net.nodes n).resources)
    (time : next.now = net.now) :
    Change resets releases (Floor.view ⟨net,pending,[c],r⟩ n) (Floor.view ⟨next,pending,[c],r⟩ n) := by
  obtain ⟨nowhere,-⟩ := nowhere_of_hand placed
  have others : ∀ other, other ≠ c → next.customers other = net.customers other := by
    intro other differs
    rw [customers,Network.customers_setCustomer,Function.update_of_ne differs]
  refine change_same queue resources ?_ ?_ ?_
  · intro other member
    have differs : other ≠ c := by
      rintro rfl
      exact nowhere.queued n member
    rw [others other differs]
  · intro _
    refine starts_same (.refl _) (by rw [history]) (by rw [history]) ?_ (.inr time) n
    intro other member
    have differs : other ≠ c := by
      rintro rfl
      exact nowhere.dropped member
    rw [others other differs]
  · intro _
    rw [history]

private theorem change_build {releases : Bool} (type : ℤ) (placed : Placed config ⟨net,pending,[],r⟩) :
    Change resets releases (Floor.view ⟨net,pending,[],r⟩ n)
      (Floor.view ⟨net.buildCustomer type,pending,[net.customerId],r⟩ n) := by
  have nowhere := nowhere_fresh placed
  have others : ∀ other, other ≠ net.customerId → (net.buildCustomer type).customers other = net.customers other := by
    intro other differs
    show Function.update net.customers net.customerId _ other = _
    rw [Function.update_of_ne differs]
  refine change_same rfl rfl ?_ ?_ fun _ => rfl
  · intro other member
    have differs : other ≠ net.customerId := by
      rintro rfl
      exact nowhere.queued n member
    rw [others other differs]
  · intro _
    refine @starts_same net (net.buildCustomer type) pending pending [] [net.customerId] r (.refl _) rfl rfl ?_ (.inr rfl) n
    intro other member
    have differs : other ≠ net.customerId := by
      rintro rfl
      exact nowhere.dropped member
    rw [others other differs]

/-- The services at other nodes and since when they last are as they were. -/
private theorem starts_elsewhere {time : ℚ} (absent : c ∉ inService net pending m) (elsewhere : m ≠ n)
    (added : later.Perm (⟨c,n,time⟩ :: pending)) (customers : next.customers = net.customers)
    (dropped : next.history.dropped = net.history.dropped)
    (started : next.history.started = Function.update net.history.started c net.now)
    (release : (if r' = some m then [next.now] else []) = if r = some m then [net.now] else []) :
    (Floor.starts ⟨next,later,hand',r'⟩ m).Perm (Floor.starts ⟨net,pending,hand,r⟩ m) := by
  unfold Floor.starts
  dsimp only
  rw [release,started,inService_congr dropped fun c _ => by rw [customers]]
  refine List.Perm.append_right _ ?_
  refine ((inService_perm net added m).map _).trans ?_
  rw [inService_cons,if_neg fun same => elsewhere same.symm,map_update absent]

/-- A service begins at the node. -/
private theorem starts_here {time : ℚ} (absent : c ∉ inService net pending n)
    (added : later.Perm (⟨c,n,time⟩ :: pending)) (customers : next.customers = net.customers)
    (dropped : next.history.dropped = net.history.dropped)
    (started : next.history.started = Function.update net.history.started c net.now) :
    ((inService next later n).map next.history.started).Perm
      (net.now :: (inService net pending n).map net.history.started) := by
  rw [started,inService_congr dropped fun c _ => by rw [customers]]
  refine ((inService_perm net added n).map _).trans ?_
  rw [inService_cons,if_pos rfl,List.map_cons,Function.update_self,map_update absent]

/-- A service at a node without resources. -/
private theorem change_serve {releases : Bool} {diary : LinkedList Event} {time : ℚ}
    (placed : Placed config ⟨net,pending,[c],r⟩) (added : later.Perm (⟨c,n,time⟩ :: pending)) (elsewhere : m ≠ n) :
    Change resets releases (Floor.view ⟨net,pending,[c],r⟩ m) (Floor.view ⟨(net.start c).scheduled diary,later,[],r⟩ m) := by
  obtain ⟨nowhere,-⟩ := nowhere_of_hand placed
  refine change_same rfl rfl (fun _ _ => rfl) (fun _ => ?_) fun _ => rfl
  exact starts_elsewhere (nowhere.absent m) elsewhere added rfl rfl rfl rfl

private theorem change_claim {releases : Bool} {diary : LinkedList Event} {time : ℚ} {resources : Resource}
    (placed : Placed config ⟨net,pending,[c],r⟩) (added : later.Perm (⟨c,n,time⟩ :: pending))
    (claimed : (net.nodes n).resources.claim net.now = some resources) :
    Change resets releases (Floor.view ⟨net,pending,[c],r⟩ m)
      (Floor.view ⟨((net.setNode n { net.nodes n with resources }).start c).scheduled diary,later,[],r⟩ m) := by
  obtain ⟨nowhere,-⟩ := nowhere_of_hand placed
  obtain ⟨available,same⟩ := claim_spec claimed
  have nodes : (((net.setNode n { net.nodes n with resources }).start c).scheduled diary).nodes =
      Function.update net.nodes n { net.nodes n with resources } := rfl
  by_cases here : m = n
  · subst here
    have node : (((net.setNode m { net.nodes m with resources }).start c).scheduled diary).nodes m =
        { net.nodes m with resources } := by rw [nodes,Function.update_self]
    have queue := congrArg Node.queue node
    have claimed := (congrArg Node.resources node).trans same
    have begun := @starts_here net (((net.setNode m { net.nodes m with resources }).start c).scheduled diary) pending later m c
      time (nowhere.absent m) added rfl rfl rfl
    refine .claim available queue claimed ?_ ?_ rfl
    · show (((net.setNode m _).start c).scheduled diary).insertions m = net.insertions m
      rw [Network.insertions,node]
      rfl
    · unfold Floor.view Floor.starts
      dsimp only
      rw [← List.cons_append]
      exact begun.append_right _
  · have node : (((net.setNode n { net.nodes n with resources }).start c).scheduled diary).nodes m = net.nodes m := by
      rw [nodes,Function.update_of_ne here]
    refine change_same (by rw [node]) (by rw [node]) (fun _ _ => rfl) (fun _ => ?_) fun _ => rfl
    exact starts_elsewhere (nowhere.absent m) here added rfl rfl rfl rfl

private theorem change_enqueue {releases : Bool} {discipline : Discipline} (placed : Placed config ⟨net,pending,[c],r⟩)
    (busy : (net.nodes n).resources.resources ≤ 0) (enqueued : net.enqueue samplers discipline n c = some next) :
    Change resets releases (Floor.view ⟨net,pending,[c],r⟩ m) (Floor.view ⟨next,pending,[],r⟩ m) := by
  obtain ⟨nowhere,-⟩ := nowhere_of_hand placed
  obtain ⟨contents,arranged,room,same⟩ := enqueue_spec enqueued
  have nodes : next.nodes = Function.update net.nodes n { net.nodes n with
      queue := (net.nodes n).queue.changed net.now contents ((net.nodes n).queue.pop + 1) } := by rw [same]; rfl
  have others : ∀ other, other ≠ c → next.customers other = net.customers other := by
    intro other differs
    rw [same,Network.customers_draw,Network.customers_setNode,Network.customers_setCustomer,Function.update_of_ne differs]
  have mine : (next.customers c).queueInsertionTime = net.now := by
    rw [same,Network.customers_draw,Network.customers_setNode,Network.customers_setCustomer,Function.update_self]
  have history : next.history = net.history := by rw [same]; rfl
  have locations : ∀ other ∈ net.history.dropped, (next.customers other).location = (net.customers other).location := by
    intro other member
    have differs : other ≠ c := by
      rintro rfl
      exact nowhere.dropped member
    rw [others other differs]
  have starts : Floor.starts ⟨next,pending,[],r⟩ m = Floor.starts ⟨net,pending,[c],r⟩ m := by
    unfold Floor.starts
    dsimp only
    have now : next.now = net.now := by rw [same]; rfl
    rw [now,history,inService_congr (by rw [history]) locations]
  have unchanged : ∀ other ∈ (net.nodes m).queue.contents,
      (next.customers other).queueInsertionTime = (net.customers other).queueInsertionTime := by
    intro other member
    have differs : other ≠ c := by
      rintro rfl
      exact nowhere.queued m member
    rw [others other differs]
  by_cases here : m = n
  · subst here
    have node : next.nodes m = { net.nodes m with
        queue := (net.nodes m).queue.changed net.now contents ((net.nodes m).queue.pop + 1) } := by
      rw [nodes,Function.update_self]
    have queue := congrArg Node.queue node
    have resources := congrArg Node.resources node
    refine .enqueue busy room ?_ queue resources ?_ starts (by
      show next.history.worked m = _
      rw [history]
      rfl)
    · rw [arranged.length_eq,List.length_cons]
      rfl
    · show (next.insertions m).Perm (net.now :: net.insertions m)
      rw [Network.insertions,node]
      refine (arranged.map _).trans ?_
      rw [List.map_cons,mine]
      refine List.Perm.cons _ (List.Perm.of_eq ?_)
      exact List.map_congr_left unchanged
  · have node : next.nodes m = net.nodes m := by rw [nodes,Function.update_of_ne here]
    refine change_same (by rw [node]) (by rw [node]) unchanged (fun _ => by rw [starts]) fun _ => by rw [history]

/-- Whether the resources of a node are released when a customer leaves it. -/
def releasesAt (config : List Station) (n : ℕ) : Bool := (kindOf config n).any Kind.releases

/-- The resource of the customer whose service ends is in use until it is released. -/
private theorem change_fire {sim : Sim Event ℚ} (timed : Timed ⟨net,pending,[],none⟩)
    (first : pending.Perm (⟨c,n,sim.vtime⟩ :: later)) :
    Change resets (releasesAt config m) (Floor.view ⟨net,pending,[],none⟩ m)
      (Floor.view ⟨(net.quiet sim net.nextId net.drawn).serves n c,later,[c],
        if (kindOf config n).any Kind.releases then some n else none⟩ m) := by
  have arranged := (inService_perm net first m).map net.history.started
  rw [inService_cons] at arranged
  by_cases here : m = n
  · subst here
    rw [if_pos rfl,List.map_cons] at arranged
    by_cases releases : releasesAt config m = true
    · obtain ⟨-,ends⟩ := timed.served _ (first.symm.subset List.mem_cons_self)
      dsimp only at ends
      refine @Change.fire resets _ _ _ ((inService net later m).map net.history.started) (net.history.started c) sim.vtime rfl rfl
        rfl ?_ ?_ ?_
      · show ((inService net pending m).map net.history.started ++ []).Perm _
        rw [List.append_nil]
        exact arranged
      · unfold Floor.view Floor.starts
        rw [if_pos (show (kindOf config m).any Kind.releases = true from releases)]
        dsimp only
        rw [if_pos rfl]
        exact List.perm_append_singleton ..
      · show Function.update net.history.worked m (net.history.worked m + (net.customers c).serviceDemand) m =
          net.history.worked m + _
        rw [Function.update_self,ends]
        ring
    · exact change_same rfl rfl (fun _ _ => rfl) (fun yes => absurd yes releases) fun yes => absurd yes releases
  · rw [if_neg fun same => here same.symm] at arranged
    refine change_same rfl rfl (fun _ _ => rfl) (fun _ => ?_) fun _ => ?_
    · have elsewhere : (if (kindOf config n).any Kind.releases then some n else none) ≠ some m := by
        split
        · simpa using fun same => here same.symm
        · simp
      unfold Floor.starts
      dsimp only
      rw [if_neg elsewhere,if_neg (by simp)]
      exact (arranged.symm).append_right _
    · show Function.update net.history.worked n _ m = net.history.worked m
      rw [Function.update_of_ne here]

/-- Whose end of service is not invoked keeps the resource. -/
private theorem change_drop {releases : Bool} {sim : Sim Event ℚ} (placed : Placed config ⟨net,pending,[],none⟩)
    (first : pending.Perm (⟨c,n,sim.vtime⟩ :: later)) :
    Change resets releases (Floor.view ⟨net,pending,[],none⟩ m)
      (Floor.view ⟨(net.quiet sim net.nextId net.drawn).drop (.endService c n),later,[],none⟩ m) := by
  have at_n := placed.served _ (first.symm.subset List.mem_cons_self)
  dsimp only at at_n
  refine change_same rfl rfl (fun _ _ => rfl) (fun _ => ?_) fun _ => rfl
  unfold Floor.starts
  dsimp only
  refine List.Perm.append_right _ (List.Perm.map _ ?_)
  refine List.Perm.trans ?_ (inService_perm net first m).symm
  rw [inService_cons]
  show ((later.filter fun s => decide (s.node = m)).map Service.customer ++
    (net.history.dropped ++ [c]).filter fun c => decide ((net.customers c).location = some m)).Perm _
  rw [List.filter_append,← List.append_assoc]
  by_cases here : n = m
  · subst here
    rw [if_pos rfl,List.filter_cons_of_pos (by simpa using at_n)]
    exact List.perm_append_singleton ..
  · rw [if_neg here,List.filter_cons_of_neg (by
      rw [at_n]
      simpa using here),List.filter_nil,List.append_nil]
    exact .refl _

private theorem change_handOver {diary : LinkedList Event} {time : ℚ} (placed : Placed config ⟨net,pending,[],r⟩)
    (mine : r = if (kindOf config n).any Kind.releases then some n else none) (dequeued : net.dequeue n = some (c,next))
    (added : later.Perm (⟨c,n,time⟩ :: pending)) :
    Change resets (releasesAt config m) (Floor.view ⟨net,pending,[],r⟩ m)
      (Floor.view ⟨(next.start c).scheduled diary,later,[],none⟩ m) := by
  obtain ⟨rest,contents,-,same⟩ := dequeue_spec dequeued
  have queued : c ∈ (net.nodes n).queue.contents := contents ▸ List.mem_cons_self
  have customers : ((next.start c).scheduled diary).customers = net.customers := by rw [same]; rfl
  have dropped : ((next.start c).scheduled diary).history.dropped = net.history.dropped := by rw [same]; rfl
  have started : ((next.start c).scheduled diary).history.started = Function.update net.history.started c net.now := by
    rw [same]
    rfl
  have nodes : ((next.start c).scheduled diary).nodes = Function.update net.nodes n { net.nodes n with
      queue := { (net.nodes n).queue.changed net.now rest ((net.nodes n).queue.pop - 1) with
        queueingTime := (net.nodes n).queue.queueingTime.add (net.now - (net.customers c).queueInsertionTime) } } := by
    rw [same]
    rfl
  have worked : ((next.start c).scheduled diary).history.worked = net.history.worked := by rw [same]; rfl
  have absent : c ∉ inService net pending m := absent_of_queued placed queued m
  by_cases here : m = n
  · subst here
    have node := congrFun nodes m
    rw [Function.update_self] at node
    have queue := congrArg Node.queue node
    have resources := congrArg Node.resources node
    refine .handOver contents queue resources ?_ ?_ (congrFun worked m)
    · show net.insertions m = _ :: ((next.start c).scheduled diary).insertions m
      rw [Network.insertions,Network.insertions,contents,node,customers]
      rfl
    · intro releases
      have here : r = some m := by
        rw [mine,if_pos]
        exact releases
      unfold Floor.view Floor.starts
      dsimp only
      rw [if_pos here,if_neg (by simp),List.append_nil]
      have begun := @starts_here net ((next.start c).scheduled diary) pending later m c time absent added customers dropped started
      exact begun.trans (List.perm_append_singleton ..).symm
  · have node := congrFun nodes m
    rw [Function.update_of_ne here] at node
    refine change_same (congrArg Node.queue node) (congrArg Node.resources node) (fun _ _ => by rw [customers]) (fun _ => ?_)
      fun _ => congrFun worked m
    refine starts_elsewhere absent here added customers dropped started ?_
    rw [if_neg (by simp),if_neg]
    rw [mine]
    split
    · simpa using fun same => here same.symm
    · simp

private theorem change_free {resources : Resource}
    (mine : r = if (kindOf config n).any Kind.releases then some n else none) (empty : (net.nodes n).queue.isEmpty = true)
    (released : (net.nodes n).resources.release net.now = some resources) :
    Change resets (releasesAt config m) (Floor.view ⟨net,pending,[],r⟩ m)
      (Floor.view ⟨net.setNode n { net.nodes n with resources },pending,[],none⟩ m) := by
  obtain ⟨claimed,same⟩ := release_spec released
  by_cases here : m = n
  · subst here
    have node : (net.setNode m { net.nodes m with resources }).nodes m = { net.nodes m with resources } := by
      rw [Network.nodes_setNode,Function.update_self]
    have queue := congrArg Node.queue node
    have freed := (congrArg Node.resources node).trans same
    refine .free (of_decide_eq_true empty) claimed queue freed ?_ ?_ rfl
    · show (net.setNode m _).insertions m = net.insertions m
      rw [Network.insertions,node]
      rfl
    · intro releases
      have here : r = some m := by
        rw [mine,if_pos]
        exact releases
      unfold Floor.view Floor.starts
      dsimp only
      rw [if_pos here,if_neg (by simp),List.append_nil]
      exact List.perm_append_singleton ..
  · have node : (net.setNode n { net.nodes n with resources }).nodes m = net.nodes m := by
      rw [Network.nodes_setNode,Function.update_of_ne here]
    refine change_same (congrArg Node.queue node) (congrArg Node.resources node) (fun _ _ => rfl) (fun _ => ?_) fun _ => rfl
    have elsewhere : r ≠ some m := by
      rw [mine]
      split
      · simpa using fun same => here same.symm
      · simp
    unfold Floor.starts
    dsimp only
    rw [if_neg elsewhere,if_neg (by simp)]
    exact .refl _

private theorem node_resetMeasures {pool : Pool} (net : Network) (server : poolOf config m = some pool) :
    (net.resetMeasures config).nodes m = { net.nodes m with
      queue := (net.nodes m).queue.resetMeasures net.now
      resources := (net.nodes m).resources.resetMeasures net.now } := by
  unfold Network.resetMeasures
  dsimp only
  rw [if_pos]
  rw [poolOf,kindOf] at server
  cases found : config[m]? with
  | none => simp [found] at server
  | some station =>
    rw [found,Option.map_some,Option.bind_some] at server
    rw [Option.bind_some,server]
    rfl

/-- What a move does to a pool. -/
theorem change_of_move {before after : Floor} {pool : Pool} (move : Move config samplers resets drops before after)
    (placed : Placed config before) (timed : Timed before) (server : poolOf config m = some pool) :
    Change resets (releasesAt config m) (before.view m) (after.view m) := by
  cases move with
  | @quiet net pending later hand r sim nextId drawn same time =>
    refine change_same rfl rfl (fun _ _ => rfl) (fun _ => ?_) fun _ => rfl
    exact @starts_same net (net.quiet sim nextId drawn) pending later hand hand r same rfl rfl (fun _ _ => rfl)
      (time.imp And.right id) m
  | @build net pending r type within => exact change_build type placed
  | locate n c => exact change_onward placed rfl rfl rfl rfl rfl
  | sample n c => exact change_onward placed rfl rfl rfl rfl rfl
  | @arrive net pending r n c =>
    exact change_onward placed rfl rfl
      (queueOf_setNode { net.nodes n with arrivals := (net.nodes n).arrivals + 1 } rfl m)
      (resourcesOf_setNode { net.nodes n with arrivals := (net.nodes n).arrivals + 1 } rfl m) rfl
  | complete at_n sink => exact change_same rfl rfl (fun _ _ => rfl) (fun _ => .refl _) fun _ => rfl
  | @serve net pending later r n c diary at_n station added =>
    refine change_serve placed added ?_
    rintro rfl
    rw [poolOf,station] at server
    cases server
  | claim at_n station claimed added => exact change_claim placed added claimed
  | enqueue at_n station busy enqueued => exact change_enqueue placed busy enqueued
  | @absorb net pending r n c pool at_n station alone =>
    exact change_same (queueOf_setNode { net.nodes n with losses := (net.nodes n).losses + 1 } rfl m)
      (resourcesOf_setNode { net.nodes n with losses := (net.nodes n).losses + 1 } rfl m) (fun _ _ => rfl)
      (fun _ => .refl _) fun _ => rfl
  | @lose net pending r n c pool station passed =>
    exact change_same (queueOf_setNode { net.nodes n with losses := (net.nodes n).losses + 1 } rfl m)
      (resourcesOf_setNode { net.nodes n with losses := (net.nodes n).losses + 1 } rfl m) (fun _ _ => rfl)
      (fun _ => .refl _) fun _ => rfl
  | fire c n first => exact change_fire timed first
  | drop c n allowed first => exact change_drop placed first
  | handOver station mine dequeued added => exact change_handOver placed mine dequeued added
  | free station mine empty released => exact change_free mine empty released
  | @reset net pending allowed =>
    have node := node_resetMeasures net server
    have queue := congrArg Node.queue node
    have resources := congrArg Node.resources node
    refine .reset allowed queue resources ?_ rfl rfl
    show (net.resetMeasures config).insertions m = net.insertions m
    rw [Network.insertions,node]
    rfl

end Changes

/-! ## Nobody waits for a free resource -/

/-- The queue of a pool counts its customers. -/
structure Lined (pool : Pool) (queue : Queue) (insertions : List ℚ) : Prop where
  capacity : queue.capacity = pool.capacity
  pop : queue.pop = queue.contents.length
  members : insertions.length = queue.contents.length
  room : queue.contents ≠ [] → queue.pop ≤ pool.capacity
  current : queue.popMeasure.current = insertions.length
  moments : 1 ≤ queue.popMeasure.moments

/-- Every resource of a pool is free or in use. -/
structure Manned (pool : Pool) (resources : Resource) (starts : List ℚ) : Prop where
  nresources : resources.nresources = pool.noOfResources
  used : resources.resources + starts.length = pool.noOfResources
  current : resources.resourceCount.current = starts.length

/-- What holds of a pool in every run: somebody waits only while no resource is free. -/
structure Staffed (pool : Pool) (releases : Bool) (view : View) : Prop where
  lined : Lined pool view.queue view.insertions
  manned : releases = true → Manned pool view.resources view.starts
  idle : view.queue.contents ≠ [] → view.resources.resources ≤ 0
  moments : 1 ≤ view.resources.resourceCount.moments

section Laws
variable {resets releases : Bool} {before after : View} {pool : Pool} {queue : Queue} {resources : Resource}
  {insertions insertions' starts starts' : List ℚ} {now : ℚ}

private theorem lined_enqueue {contents : List ℕ} (lined : Lined pool queue insertions) (room : queue.pop < queue.capacity)
    (longer : contents.length = queue.contents.length + 1) (arranged : insertions'.Perm (now :: insertions)) :
    Lined pool (queue.changed now contents (queue.pop + 1)) insertions' where
  capacity := lined.capacity
  pop := by
    show queue.pop + 1 = (contents.length : ℤ)
    rw [lined.pop,longer,Nat.cast_succ]
  members := by
    rw [arranged.length_eq,List.length_cons,lined.members]
    exact longer.symm
  room _ := by
    rw [← lined.capacity]
    exact room
  current := by
    show ((queue.pop + 1 : ℤ) : ℚ) = _
    rw [arranged.length_eq,List.length_cons,lined.pop,lined.members]
    norm_cast
  moments := lined.moments

private theorem lined_dequeue {c : ℕ} {rest : List ℕ} {insertion : ℚ} (lined : Lined pool queue (insertion :: insertions))
    (contents : queue.contents = c :: rest) (queueingTime : CustomerMeasure) :
    Lined pool { queue.changed now rest (queue.pop - 1) with queueingTime } insertions := by
  have pop := lined.pop
  have members := lined.members
  rw [contents,List.length_cons] at pop members
  rw [List.length_cons,add_left_inj] at members
  constructor
  case capacity => exact lined.capacity
  case pop =>
    show queue.pop - 1 = (rest.length : ℤ)
    omega
  case members => exact members
  case room =>
    intro _
    have room := lined.room (by simp [contents])
    show queue.pop - 1 ≤ pool.capacity
    omega
  case current =>
    show ((queue.pop - 1 : ℤ) : ℚ) = _
    rw [pop,members]
    push_cast
    ring
  case moments => exact lined.moments

private theorem manned_claim (manned : Manned pool resources starts) (arranged : starts'.Perm (now :: starts)) :
    Manned pool (resources.changed now (resources.resources - 1)) starts' := by
  have used := manned.used
  have longer : starts'.length = starts.length + 1 := arranged.length_eq
  constructor
  case nresources => exact manned.nresources
  case used =>
    show resources.resources - 1 + (starts'.length : ℤ) = _
    omega
  case current =>
    show (resources.nresources : ℚ) - ((resources.resources - 1 : ℤ) : ℚ) = _
    rw [manned.nresources,← used,longer]
    push_cast
    ring

private theorem manned_free (manned : Manned pool resources starts) (arranged : starts.Perm (now :: starts')) :
    Manned pool (resources.changed now (resources.resources + 1)) starts' := by
  have used := manned.used
  have longer : starts.length = starts'.length + 1 := arranged.length_eq
  constructor
  case nresources => exact manned.nresources
  case used =>
    show resources.resources + 1 + (starts'.length : ℤ) = _
    omega
  case current =>
    show (resources.nresources : ℚ) - ((resources.resources + 1 : ℤ) : ℚ) = _
    rw [manned.nresources,← used,longer]
    push_cast
    ring

private theorem manned_perm (manned : Manned pool resources starts) (same : starts'.length = starts.length) :
    Manned pool resources starts' :=
  ⟨manned.nresources,same ▸ manned.used,same ▸ manned.current⟩

theorem staffed_change (change : Change resets releases before after) (staffed : Staffed pool releases before) :
    Staffed pool releases after := by
  obtain ⟨lined,manned,idle,moments⟩ := staffed
  cases change with
  | same queue resources insertions starts worked =>
    refine ⟨?_,?_,?_,by rw [resources]; exact moments⟩
    · rw [queue,insertions]
      exact lined
    · intro yes
      rw [resources]
      exact manned_perm (manned yes) (starts yes).length_eq
    · rw [queue,resources]
      exact idle
  | enqueue busy room longer queue resources insertions starts worked =>
    refine ⟨?_,?_,?_,by rw [resources]; exact moments⟩
    · rw [queue]
      exact lined_enqueue lined room longer insertions
    · rw [resources,starts]
      exact manned
    · rw [resources]
      exact fun _ => busy
  | handOver contents queue resources insertions starts worked =>
    refine ⟨?_,?_,?_,by rw [resources]; exact moments⟩
    · rw [queue]
      exact lined_dequeue (insertions ▸ lined) contents _
    · intro yes
      rw [resources]
      exact manned_perm (manned yes) (starts yes).length_eq
    · rw [resources]
      exact fun _ => idle (by simp [contents])
  | claim available queue resources insertions starts worked =>
    have nobody : before.queue.contents = [] := by
      by_contra someone
      have busy := idle someone
      omega
    refine ⟨?_,?_,?_,by rw [resources]; exact moments⟩
    · rw [queue,insertions]
      exact lined
    · intro yes
      rw [resources]
      exact manned_claim (manned yes) starts
    · rw [queue]
      exact fun someone => absurd nobody someone
  | fire queue resources insertions served starts worked =>
    refine ⟨?_,?_,?_,by rw [resources]; exact moments⟩
    · rw [queue,insertions]
      exact lined
    · intro yes
      rw [resources]
      exact manned_perm (manned yes) (starts.length_eq.trans served.length_eq.symm)
    · rw [queue,resources]
      exact idle
  | free empty claimed queue resources insertions starts worked =>
    refine ⟨?_,?_,?_,by rw [resources]; exact moments⟩
    · rw [queue,insertions]
      exact lined
    · intro yes
      rw [resources]
      exact manned_free (manned yes) (starts yes)
    · intro someone
      rw [queue] at someone
      have pop := lined.pop
      have some := List.length_pos_iff.mpr someone
      omega
  | reset allowed queue resources insertions starts worked =>
    refine ⟨?_,?_,?_,by rw [resources]; exact moments⟩
    · rw [queue,insertions]
      exact ⟨lined.capacity,lined.pop,lined.members,lined.room,lined.current,lined.moments⟩
    · intro yes
      rw [resources,starts]
      exact ⟨(manned yes).nresources,(manned yes).used,(manned yes).current⟩
    · rw [queue,resources]
      exact idle

/-! ## The measures agree -/

/-- The measures of a pool agree with the stays of its customers, but for what they had at first. -/
structure Measured (releases : Bool) (waited worked : ℚ) (view : View) : Prop where
  queue : Balanced (view.queue.popMeasure.moment 1) view.queue.popMeasure.lastChange view.insertions
    (view.queue.queueingTime.moment 1 + waited)
  resources : releases = true → Balanced (view.resources.resourceCount.moment 1)
    view.resources.resourceCount.lastChange view.starts (view.worked + worked)

private theorem moment_add {measure : SystemMeasure} (moments : 1 ≤ measure.moments) (now x : ℚ) :
    (measure.add now x).moment 1 = measure.moment 1 + measure.current * (now - measure.lastChange) := by
  unfold SystemMeasure.add
  dsimp only
  rw [if_pos ⟨le_rfl,by exact_mod_cast moments⟩,pow_one]

private theorem moment_resetMeasures {measure : SystemMeasure} (moments : 1 ≤ measure.moments) (now : ℚ) :
    (measure.resetMeasures now).moment 1 = 0 := by
  unfold SystemMeasure.resetMeasures
  dsimp only
  rw [if_pos ⟨le_rfl,by exact_mod_cast moments⟩]

/-- Every change of a pool keeps its measures in agreement unless they are reset. -/
theorem measured_change {waited worked : ℚ} (change : Change false releases before after)
    (staffed : Staffed pool releases before) (measured : Measured releases waited worked before) :
    Measured releases waited worked after := by
  obtain ⟨queue,resources⟩ := measured
  have population := moment_add staffed.lined.moments
  rw [staffed.lined.current] at population
  have usage := moment_add staffed.moments
  cases change with
  | same queue' resources' insertions starts worked' =>
    refine ⟨?_,?_⟩
    · rw [queue',insertions]
      exact queue
    · intro yes
      rw [resources',worked' yes]
      exact (resources yes).perm (starts yes).symm
  | @enqueue now contents busy room longer queue' resources' insertions starts worked' =>
    refine ⟨?_,?_⟩
    · rw [queue']
      refine Balanced.perm ?_ insertions.symm
      show Balanced ((before.queue.popMeasure.add now _).moment 1) now _ _
      rw [population]
      exact queue.enter now
    · rw [resources',starts,worked']
      exact resources
  | @handOver now insertion c rest contents queue' resources' insertions starts worked' =>
    refine ⟨?_,?_⟩
    · rw [queue']
      show Balanced ((before.queue.popMeasure.add now _).moment 1) now after.insertions
        ((before.queue.queueingTime.add (now - insertion)).moment 1 + waited)
      have total : (before.queue.queueingTime.add (now - insertion)).moment 1 + waited =
          before.queue.queueingTime.moment 1 + waited + (now - insertion) := by
        unfold CustomerMeasure.add
        dsimp only
        rw [if_pos ⟨le_rfl,by omega⟩]
        ring
      rw [population,total]
      exact queue.leave (.of_eq insertions) now
    · intro yes
      rw [resources',worked']
      exact (resources yes).perm (starts yes).symm
  | @claim now available queue' resources' insertions starts worked' =>
    refine ⟨?_,?_⟩
    · rw [queue',insertions]
      exact queue
    · intro yes
      rw [resources',worked']
      refine Balanced.perm ?_ starts.symm
      show Balanced ((before.resources.resourceCount.add now _).moment 1) now _ _
      rw [usage,(staffed.manned yes).current]
      exact (resources yes).enter now
  | @fire rest start now queue' resources' insertions served starts worked' =>
    refine ⟨?_,?_⟩
    · rw [queue',insertions]
      exact queue
    · intro yes
      rw [resources',worked',add_right_comm]
      exact ((resources yes).replace served now).perm starts.symm
  | @free now empty claimed queue' resources' insertions starts worked' =>
    refine ⟨?_,?_⟩
    · rw [queue',insertions]
      exact queue
    · intro yes
      rw [resources',worked']
      show Balanced ((before.resources.resourceCount.add now _).moment 1) now _ _
      rw [usage,(staffed.manned yes).current]
      have left := (resources yes).leave (starts yes) now
      rwa [sub_self,add_zero] at left
  | reset allowed => cases allowed

end Laws

/-! ## Over whole runs -/

section Runs
variable {config : List Station} {samplers : Samplers} {resets drops : Bool} {depth : ℕ} {net middle last : Network}
  {steps before after : List Step} {n : ℕ} {pool : Pool}

/-- What all moves keep, whether the measures are reset or not. -/
structure Kept (config : List Station) (f : Floor) : Prop where
  placed : Placed config f
  timed : Timed f
  staffed : ∀ n pool, poolOf config n = some pool → Staffed pool (releasesAt config n) (f.view n)

theorem kept_of_move {from' to' : Floor} (move : Move config samplers resets drops from' to')
    (kept : Kept config from') : Kept config to' where
  placed := placed_move move kept.placed
  timed := timed_move move kept.placed kept.timed
  staffed n pool server :=
    staffed_change (change_of_move move kept.placed kept.timed server) (kept.staffed n pool server)

private theorem node_start (server : poolOf config n = some pool) :
    (Network.build config).nodes n = { queue := { capacity := pool.capacity },resources := ⟨pool.noOfResources,
      pool.noOfResources,SystemMeasures.Construction.default.measure⟩ } := by
  rw [poolOf,kindOf] at server
  unfold Network.build
  dsimp only
  cases found : config[n]? with
  | none => simp [found] at server
  | some station =>
    rw [found,Option.map_some,Option.bind_some] at server
    rw [Option.elim_some,Station.build,server]

theorem kept_start_pools : Kept config (floor (.build config) [] [] none) where
  placed := kept_start.1
  timed := kept_start.2
  staffed n pool server := by
    have node := node_start server
    have queue := congrArg Node.queue node
    have resources := congrArg Node.resources node
    dsimp only at queue resources
    have insertions : (Network.build config).insertions n = [] := by
      rw [Network.insertions,queue]
      rfl
    have starts : Floor.starts (floor (.build config) [] [] none) n = [] := rfl
    unfold Floor.view
    dsimp only
    rw [queue,resources,insertions,starts]
    have moments : (1 : ℤ) ≤ 2 := by decide
    refine ⟨?_,?_,?_,moments⟩
    · exact ⟨rfl,rfl,rfl,fun someone => absurd rfl someone,rfl,moments⟩
    · intro _
      exact ⟨rfl,add_zero _,by simp [SystemMeasures.Construction.measure]⟩
    · exact fun someone => absurd rfl someone

theorem kept_of_run (executed : run (step config samplers depth) (.build config) steps = some net) :
    Holds net.sim.diary net.sim.diary.contents ∧ Kept config (floor net net.sim.diary.contents [] none) := by
  obtain ⟨events,holds,kept⟩ := @invariant_of_moves config samplers true true depth _ net [] (Kept config)
    (fun _ _ => kept_of_move) steps (fun _ => rfl) (fun _ _ => rfl) holds_empty kept_start_pools executed
  rw [contents_eq holds]
  exact ⟨holds,kept⟩

/-- In every state of a run the customers of a pool wait only while no resource is free and never more than there is
    room for, and every resource of a queueing node is free or in use by one customer. -/
theorem waits_only_if_busy (executed : run (step config samplers depth) (.build config) steps = some net)
    (server : poolOf config n = some pool) :
    ((net.nodes n).queue.contents ≠ [] →
      (net.nodes n).resources.resources ≤ 0 ∧ ((net.nodes n).queue.contents.length : ℤ) ≤ pool.capacity) ∧
    (net.nodes n).queue.pop = (net.nodes n).queue.contents.length ∧
    (releasesAt config n = true → (net.nodes n).resources.resources +
      (inService net (services net.sim.diary.contents) n).length = pool.noOfResources) := by
  obtain ⟨-,kept⟩ := kept_of_run executed
  obtain ⟨lined,manned,idle,-⟩ := kept.staffed n pool server
  refine ⟨fun someone => ⟨idle someone,?_⟩,lined.pop,?_⟩
  · have room := lined.room someone
    rw [lined.pop] at room
    exact room
  · intro releases
    have used := (manned releases).used
    unfold Floor.view Floor.starts at used
    simpa using used

private theorem cleared_opening (first : run (step config samplers depth) (.build config) before = some middle)
    (opening : before = [] ∨ ∃ earlier, before = earlier ++ [.resetMeasures]) (server : poolOf config n = some pool) :
    (middle.nodes n).queue.popMeasure.moment 1 = 0 ∧ (middle.nodes n).queue.queueingTime.moment 1 = 0 ∧
      (middle.nodes n).resources.resourceCount.moment 1 = 0 := by
  rcases opening with rfl | ⟨earlier,rfl⟩
  · cases first
    rw [node_start server]
    exact ⟨rfl,rfl,rfl⟩
  · obtain ⟨state,reached,stepped⟩ := (run_append _ earlier _ middle).mp first
    obtain ⟨next,stepped,same⟩ := (run_cons _ _ _ _).mp stepped
    cases same
    dsimp only [step] at stepped
    split at stepped
    · cases stepped
      obtain ⟨lined,-,-,moments⟩ := (kept_of_run reached).2.staffed n pool server
      rw [node_resetMeasures state server]
      exact ⟨moment_resetMeasures lined.moments _,rfl,moment_resetMeasures moments _⟩
    · cases stepped

/-- Since when the resources of a node are in use. -/
def Network.starts (net : Network) (n : ℕ) : List ℚ :=
  (inService net (services net.sim.diary.contents) n).map net.history.started

private theorem starts_floor (net : Network) (n : ℕ) :
    Floor.starts (floor net net.sim.diary.contents [] none) n = net.starts n := List.append_nil _

/-- Where the measures have been cleared, what the present customers have stayed until the last change is missing. -/
private theorem measured_opening (cleared : (middle.nodes n).queue.popMeasure.moment 1 = 0 ∧
      (middle.nodes n).queue.queueingTime.moment 1 = 0 ∧ (middle.nodes n).resources.resourceCount.moment 1 = 0)
    (releases : Bool) :
    Measured releases (-stays (middle.insertions n) (middle.nodes n).queue.popMeasure.lastChange)
      (-stays (middle.starts n) (middle.nodes n).resources.resourceCount.lastChange - middle.history.worked n)
      (Floor.view (floor middle middle.sim.diary.contents [] none) n) := by
  obtain ⟨area,total,use⟩ := cleared
  unfold Floor.view
  dsimp only
  rw [starts_floor]
  constructor
  case queue =>
    dsimp only
    rw [area,total,zero_add]
    exact balanced_cleared _ _
  case resources =>
    intro _
    dsimp only
    rw [use,add_sub_cancel]
    exact balanced_cleared _ _

/-- The measures of a pool since they were reset for the last time, or since the beginning. -/
private theorem measured_since (first : run (step config samplers depth) (.build config) before = some middle)
    (second : run (step config samplers depth) middle after = some last)
    (opening : before = [] ∨ ∃ earlier, before = earlier ++ [.resetMeasures]) (unreset : .resetMeasures ∉ after)
    (server : poolOf config n = some pool) :
    Measured (releasesAt config n) (-stays (middle.insertions n) (middle.nodes n).queue.popMeasure.lastChange)
      (-stays (middle.starts n) (middle.nodes n).resources.resourceCount.lastChange - middle.history.worked n)
      (Floor.view (floor last last.sim.diary.contents [] none) n) := by
  obtain ⟨holds,kept⟩ := kept_of_run first
  have opened := measured_opening (cleared_opening first opening server) (releasesAt config n)
  generalize -stays (middle.insertions n) (middle.nodes n).queue.popMeasure.lastChange = waited at opened ⊢
  generalize -stays (middle.starts n) (middle.nodes n).resources.resourceCount.lastChange - middle.history.worked n = worked
    at opened ⊢
  obtain ⟨events,holds',-,measured⟩ := @invariant_of_moves config samplers false true depth middle last _
    (fun f => Kept config f ∧ Measured (releasesAt config n) waited worked (f.view n)) (by
      rintro from' to' move ⟨kept,measured⟩
      refine ⟨kept_of_move move kept,?_⟩
      exact measured_change (change_of_move move kept.placed kept.timed server) (kept.staffed n pool server) measured)
    after (fun member => absurd member unreset) (fun _ _ => rfl) holds ⟨kept,opened⟩ second
  rwa [contents_eq holds']

/-- The mean number of waiting customers and their mean waiting time, which are measured apart, since the last reset:
    the area under the number is the sum of the waiting times. What the present customers have waited is in the area
    and not in the times; what those present at the reset had waited until the last change before it is in the
    times and not in the area. -/
theorem littles_law (first : run (step config samplers depth) (.build config) before = some middle)
    (second : run (step config samplers depth) middle after = some last)
    (opening : before = [] ∨ ∃ earlier, before = earlier ++ [.resetMeasures]) (unreset : .resetMeasures ∉ after)
    (server : poolOf config n = some pool) {meanQueueLength meanTimeInQueue : ℚ}
    (number : (last.nodes n).queue.popMeasure.mean last.now = some meanQueueLength)
    (time : (last.nodes n).queue.queueingTime.mean = some meanTimeInQueue) :
    meanQueueLength * (last.now - (last.nodes n).queue.popMeasure.resetTime) +
        (last.nodes n).queue.contents.length * (last.now - (last.nodes n).queue.popMeasure.lastChange) +
        stays (middle.insertions n) (middle.nodes n).queue.popMeasure.lastChange =
      meanTimeInQueue * (last.nodes n).queue.queueingTime.n + stays (last.insertions n) last.now := by
  have balanced := (measured_since first second opening unreset server).queue last.now
  unfold Floor.view at balanced
  dsimp only at balanced
  have length : ((last.insertions n).length : ℚ) = (last.nodes n).queue.contents.length := by
    rw [Network.insertions,List.length_map]
  have area : meanQueueLength * (last.now - (last.nodes n).queue.popMeasure.resetTime) =
      (last.nodes n).queue.popMeasure.moment 1 := by
    unfold SystemMeasure.mean at number
    split at number
    · cases number
    case isFalse positive =>
      obtain rfl := Option.some.inj number
      exact div_mul_cancel₀ _ positive
  have total : meanTimeInQueue * (last.nodes n).queue.queueingTime.n = (last.nodes n).queue.queueingTime.moment 1 := by
    unfold CustomerMeasure.mean at time
    split at time
    · cases time
    case isFalse positive =>
      obtain rfl := Option.some.inj time
      exact div_mul_cancel₀ _ (by exact_mod_cast positive)
  rw [area,total]
  rw [length] at balanced
  linear_combination balanced

/-- The utilisation of a node's resources since the last reset: the area under their number is the sum of the demands
    served since then, up to the services under way at the reset and now. -/
theorem utilisation_law (first : run (step config samplers depth) (.build config) before = some middle)
    (second : run (step config samplers depth) middle after = some last)
    (opening : before = [] ∨ ∃ earlier, before = earlier ++ [.resetMeasures]) (unreset : .resetMeasures ∉ after)
    (server : poolOf config n = some pool) (releases : releasesAt config n = true) {busy : ℚ}
    (number : (last.nodes n).resources.resourceCount.mean last.now = some busy) :
    busy * (last.now - (last.nodes n).resources.resourceCount.resetTime) +
        (pool.noOfResources - (last.nodes n).resources.resources) *
          (last.now - (last.nodes n).resources.resourceCount.lastChange) +
        stays (middle.starts n) (middle.nodes n).resources.resourceCount.lastChange =
      last.history.worked n - middle.history.worked n + stays (last.starts n) last.now := by
  have balanced := (measured_since first second opening unreset server).resources releases last.now
  unfold Floor.view at balanced
  dsimp only at balanced
  rw [starts_floor] at balanced
  have reached := (run_append _ before after last).mpr ⟨middle,first,second⟩
  have used := (((kept_of_run reached).2.staffed n pool server).manned releases).used
  unfold Floor.view at used
  dsimp only at used
  rw [starts_floor] at used
  have length : ((last.starts n).length : ℚ) = pool.noOfResources - (last.nodes n).resources.resources := by
    rw [← used]
    push_cast
    ring
  have area : busy * (last.now - (last.nodes n).resources.resourceCount.resetTime) =
      (last.nodes n).resources.resourceCount.moment 1 := by
    unfold SystemMeasure.mean at number
    split at number
    · cases number
    case isFalse positive =>
      obtain rfl := Option.some.inj number
      exact div_mul_cancel₀ _ positive
  rw [area]
  rw [length] at balanced
  linear_combination balanced

/-- Customer 1 has come, at 2. -/
def early : List Step := [.construct 0,.simulate none] ++ List.replicate 2 (.iterate false false) ++ [.iterate true false]

/-- Customer 1 waits while customer 0 is served. -/
theorem waits_only_if_busy_desk : ∃ net, run (step desk daily 3) (.build desk) early = some net ∧
    (net.nodes 1).queue.contents.length = 1 ∧ (net.nodes 1).resources.resources ≤ 0 ∧
    (net.nodes 1).resources.resources + (inService net (services net.sim.diary.contents) 1).length = 1 := by
  obtain ⟨net,executed,checked⟩ := @exists_of_checked _ _ (step desk daily 3)
    (fun net => decide ((net.nodes 1).queue.contents.length = 1)) (.build desk) early (by decide +kernel)
  have one : (net.nodes 1).queue.contents.length = 1 := of_decide_eq_true checked
  have staffed := @waits_only_if_busy desk daily 3 net early 1 { noOfResources := 1,capacity := 1 } executed rfl
  have someone : (net.nodes 1).queue.contents ≠ [] := List.ne_nil_of_length_pos (by omega)
  exact ⟨net,executed,one,(staffed.1 someone).1,staffed.2.2 rfl⟩

def afternoon : List Step := early ++ [.resetMeasures]

def evening : List Step := .simulate none :: List.replicate 3 (.iterate false false)

/-- Customer 1 waits from 2 to 4; the area is 2 and so is its waiting time. -/
theorem littles_law_desk : ∃ middle last, run (step desk daily 3) (.build desk) afternoon = some middle ∧
    run (step desk daily 3) middle evening = some last ∧
    (last.nodes 1).queue.popMeasure.mean last.now = some 1 ∧ (last.nodes 1).queue.queueingTime.mean = some 2 ∧
    1 * (last.now - (last.nodes 1).queue.popMeasure.resetTime) +
        (last.nodes 1).queue.contents.length * (last.now - (last.nodes 1).queue.popMeasure.lastChange) +
        stays (middle.insertions 1) (middle.nodes 1).queue.popMeasure.lastChange =
      2 * (last.nodes 1).queue.queueingTime.n + stays (last.insertions 1) last.now := by
  obtain ⟨last,executed,checked⟩ := @exists_of_checked _ _ (step desk daily 3)
    (fun last => decide ((last.nodes 1).queue.popMeasure.mean last.now = some 1 ∧
      (last.nodes 1).queue.queueingTime.mean = some 2)) (.build desk) (afternoon ++ evening) (by decide +kernel)
  obtain ⟨number,time⟩ := of_decide_eq_true checked
  obtain ⟨middle,first,second⟩ := (run_append _ afternoon evening last).mp executed
  exact ⟨middle,last,first,second,number,time,
    littles_law first second (.inr ⟨early,rfl⟩) (by decide) rfl number time⟩

theorem utilisation_law_desk : ∃ middle last, run (step desk daily 3) (.build desk) afternoon = some middle ∧
    run (step desk daily 3) middle evening = some last ∧
    (last.nodes 1).resources.resourceCount.mean last.now = some 0 ∧
    0 * (last.now - (last.nodes 1).resources.resourceCount.resetTime) +
        (((1 : ℤ) : ℚ) - (last.nodes 1).resources.resources) *
          (last.now - (last.nodes 1).resources.resourceCount.lastChange) +
        stays (middle.starts 1) (middle.nodes 1).resources.resourceCount.lastChange =
      last.history.worked 1 - middle.history.worked 1 + stays (last.starts 1) last.now := by
  obtain ⟨last,executed,checked⟩ := @exists_of_checked _ _ (step desk daily 3)
    (fun last => decide ((last.nodes 1).resources.resourceCount.mean last.now = some 0)) (.build desk)
    (afternoon ++ evening) (by decide +kernel)
  obtain ⟨middle,first,second⟩ := (run_append _ afternoon evening last).mp executed
  exact ⟨middle,last,first,second,of_decide_eq_true checked,
    utilisation_law first second (.inr ⟨early,rfl⟩) (by decide) rfl rfl (of_decide_eq_true checked)⟩

end Runs

end Vexjine.QueueingNetworks
