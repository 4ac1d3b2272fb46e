import Vexjine.ModelTime

/-!
# The slices of a service

A local service is served in slices, one for each timeslot, until nothing of its
demand remains. The model handler keeps what remains, the loop of the thread decides
whether a round serves a slice or moves the customer on.
-/

namespace Vexjine.ModelTime
open Vexjine.VirtualTimeline Vexjine.ThreadTimers Vexjine.Runs

/-! ## The handler -/

/-- The slices that the handler returns for the timeslots in order, and what remains after them. -/
def simulateLocalServiceTimes : Int → List Timeslot → List Int × Int
  | remaining, [] => ([],remaining)
  | remaining, slot :: rest =>
    let (slice,left) := simulateLocalServiceTime remaining slot
    let (slices,last) := simulateLocalServiceTimes left rest
    (slice :: slices,last)

/-- What is served of the demand in the timeslots, however they are cut. -/
structure ServesDemand (demand : Int) (slots : List Timeslot) : Prop where
  within : List.Forall₂ (fun slice slot => 0 ≤ slice ∧ slice ≤ slot.1) (simulateLocalServiceTimes demand slots).1 slots
  kept : (simulateLocalServiceTimes demand slots).1.sum + (simulateLocalServiceTimes demand slots).2 = demand
  total : (simulateLocalServiceTimes demand slots).1.sum = min demand (slots.map Subtype.val).sum

private theorem served_add_left (remaining slot : Int) :
    (simulateLocalServiceTime remaining slot).1 + (simulateLocalServiceTime remaining slot).2 = remaining := by
  unfold simulateLocalServiceTime
  split_ifs <;> omega

private theorem served_eq_min {remaining : Int} (_nonneg : 0 ≤ remaining) (slot : Timeslot) :
    (simulateLocalServiceTime remaining slot).1 = min remaining slot := by
  have positive := slot.2
  unfold simulateLocalServiceTime
  split_ifs <;> omega

private theorem slots_nonneg (slots : List Timeslot) : 0 ≤ (slots.map Subtype.val).sum := by
  apply List.sum_nonneg
  intro time member
  obtain ⟨slot,-,rfl⟩ := List.mem_map.mp member
  exact slot.2.le

/-- By induction on the slots: the rest of the demand is served in the rest of the slots. -/
private theorem serves_of_nonneg (slots : List Timeslot) : ∀ demand : Int, 0 ≤ demand → ServesDemand demand slots := by
  induction slots with
  | nil =>
    intro demand nonneg
    refine ⟨.nil,by simp [simulateLocalServiceTimes],?_⟩
    simpa [simulateLocalServiceTimes] using nonneg
  | cons slot rest ih =>
    intro demand nonneg
    have slice := served_eq_min nonneg slot
    have conserved := served_add_left demand slot
    have positive := slot.2
    have later := slots_nonneg rest
    have fits : 0 ≤ (simulateLocalServiceTime demand slot).1 ∧ (simulateLocalServiceTime demand slot).1 ≤ slot.1 := by
      omega
    have served := ih (simulateLocalServiceTime demand slot).2 (by omega)
    refine ⟨.cons fits served.within,?_,?_⟩
    · have kept := served.kept
      simp only [simulateLocalServiceTimes,List.sum_cons]
      omega
    · have total := served.total
      simp only [simulateLocalServiceTimes,List.sum_cons,List.map_cons]
      omega

/-! ## The loop -/

section Loop
variable {Node : Type*} (nodeType : Node → NodeType) (scaling : Scaling) (controller : Controller)

namespace Thread

/-- The timeslot of a round of the loop. -/
def slot (thread : Thread Node) : Event Node → Option Int
  | .iterate _ =>
    match thread.phase with
    | .simulating total => some total
    | _ => none
  | _ => none

/-- What a step serves of a local demand. -/
def slice (thread : Thread Node) (event : Event Node) : Int :=
  (thread.slot event).elim 0 fun total => (simulateLocalServiceTime thread.remainingLocalResourceConsumption total).1

/-- A round that serves nothing resumes the simulation of the model. -/
def MovesOn (thread : Thread Node) (event : Event Node) : Prop := (thread.slot event).isSome ∧ thread.slice event = 0

instance (thread : Thread Node) (event : Event Node) : Decidable (thread.MovesOn event) :=
  inferInstanceAs (Decidable (_ ∧ _))

/-- The customer does not leave its place in the model. -/
def Stays (thread : Thread Node) (event : Event Node) : Prop :=
  ∀ next ∈ thread.step nodeType scaling controller event, next.location = thread.location

instance [DecidableEq Node] (thread : Thread Node) (event : Event Node) :
    Decidable (thread.Stays nodeType scaling controller event) := Option.decidableForallMem _

/-- The slices of a run, with their timeslots. -/
def slices : Thread Node → List (Event Node) → List (Int × Int)
  | _, [] => []
  | thread, event :: rest =>
    ((thread.slot event).toList.map fun total => (thread.slice event,total)) ++
      (thread.step nodeType scaling controller event).elim [] fun next => slices next rest

/-- The time that a run serves. -/
def served (thread : Thread Node) (events : List (Event Node)) : Int :=
  ((thread.slices nodeType scaling controller events).map Prod.fst).sum

end Thread

section Rounds
variable {nodeType : Node → NodeType} {scaling : Scaling} {controller : Controller} {thread next : Thread Node}

/-- A round has a timeslot. -/
private def Timed (thread : Thread Node) : Prop := ∀ total, thread.phase = .simulating total → 0 < total

private theorem timed_step {event : Event Node} (timed : Timed thread)
    (stepped : thread.step nodeType scaling controller event = some next) : Timed next := by
  intro total simulates
  cases event with
  | simulate source time slice =>
    simp only [Thread.step,Thread.simulate,Option.ite_none_right_eq_some,Option.some.injEq] at stepped
    obtain ⟨-,rfl⟩ := stepped
    cases slice with
    | none => cases simulates
    | some slot =>
      cases simulates
      exact slot.2
  | resume slot timelineTime activationTime =>
    simp only [Thread.step,Thread.resume,Option.ite_none_right_eq_some,Option.some.injEq] at stepped
    obtain ⟨-,rfl⟩ := stepped
    cases simulates
    exact slot.2
  | iterate arrival =>
    simp only [Thread.step,Thread.iterate] at stepped
    split at stepped
    case h_2 => cases stepped
    cases stepped
    simp only [Thread.next] at simulates
    split at simulates
    · rename_i continues
      cases simulates
      exact continues.2.2.2
    · cases simulates
  | commit timelineTime =>
    simp only [Thread.step,Thread.commit,Option.ite_none_right_eq_some,Option.some.injEq] at stepped
    obtain ⟨-,rfl⟩ := stepped
    dsimp only at simulates
    split at simulates <;> cases simulates
  | wake releaseTime =>
    simp only [Thread.step,Thread.wake,Option.ite_none_right_eq_some,Option.some.injEq] at stepped
    obtain ⟨-,rfl⟩ := stepped
    exact timed total simulates

/-- Only what is served is taken from the demand, as long as the customer does not move on. -/
private theorem remaining_step {event : Event Node} (stays : ¬ thread.MovesOn event)
    (stepped : thread.step nodeType scaling controller event = some next) :
    thread.slice event + next.remainingLocalResourceConsumption = thread.remainingLocalResourceConsumption := by
  cases event with
  | simulate source time slice =>
    simp only [Thread.step,Thread.simulate,Option.ite_none_right_eq_some,Option.some.injEq] at stepped
    obtain ⟨-,rfl⟩ := stepped
    exact zero_add _
  | resume slot timelineTime activationTime =>
    simp only [Thread.step,Thread.resume,Option.ite_none_right_eq_some,Option.some.injEq] at stepped
    obtain ⟨-,rfl⟩ := stepped
    exact zero_add _
  | iterate arrival =>
    simp only [Thread.step,Thread.iterate] at stepped
    split at stepped
    case h_2 => cases stepped
    rename_i total simulates
    cases stepped
    simp only [Thread.MovesOn,Thread.slice,Thread.slot,simulates,Option.isSome_some,Option.elim_some,true_and] at stays ⊢
    simp only [Thread.next,Thread.progress,ne_eq,stays,not_false_eq_true,if_true]
    exact served_add_left _ total
  | commit timelineTime =>
    simp only [Thread.step,Thread.commit,Option.ite_none_right_eq_some,Option.some.injEq] at stepped
    obtain ⟨-,rfl⟩ := stepped
    exact zero_add _
  | wake releaseTime =>
    simp only [Thread.step,Thread.wake,Option.ite_none_right_eq_some,Option.some.injEq] at stepped
    obtain ⟨-,rfl⟩ := stepped
    exact zero_add _

/-- A customer that has left its model is in no round and in no queue. -/
private def Inside (thread : Thread Node) : Prop :=
  thread.isFinished = true → thread.phase = .committing ∨ thread.phase = .realCode

private theorem inside_step {event : Event Node} (inside : Inside thread)
    (stepped : thread.step nodeType scaling controller event = some next) : Inside next := by
  intro finished
  cases event with
  | simulate source time slice =>
    simp only [Thread.step,Thread.simulate,Option.ite_none_right_eq_some,Option.some.injEq] at stepped
    obtain ⟨-,rfl⟩ := stepped
    cases finished
  | resume slot timelineTime activationTime =>
    simp only [Thread.step,Thread.resume,Option.ite_none_right_eq_some,Option.some.injEq] at stepped
    obtain ⟨⟨runnable,-⟩,rfl⟩ := stepped
    rcases inside finished with commits | outside
    · exact absurd (runnable.symm.trans commits) (by simp)
    · exact absurd (runnable.symm.trans outside) (by simp)
  | iterate arrival =>
    simp only [Thread.step,Thread.iterate] at stepped
    split at stepped
    case h_2 => cases stepped
    cases stepped
    left
    exact if_neg fun continues => by simp [Thread.next] at finished; simp [finished] at continues
  | commit timelineTime =>
    simp only [Thread.step,Thread.commit,Option.ite_none_right_eq_some,Option.some.injEq] at stepped
    obtain ⟨-,rfl⟩ := stepped
    right
    exact if_pos finished
  | wake releaseTime =>
    simp only [Thread.step,Thread.wake,Option.ite_none_right_eq_some,Option.some.injEq] at stepped
    obtain ⟨-,rfl⟩ := stepped
    exact inside finished

/-- The thread simulates a model, and its customer is at the service that began at the node. -/
private structure Serves (node : Node) (thread : Thread Node) : Prop where
  location : thread.location = .postServiceAction node
  unfinished : thread.isFinished = false
  simulates : thread.phase ≠ .realCode

/-- A step from the service serves a slice, leaves the customer where it is, or is a round without a slice. -/
private theorem serves_step {node : Node} {event : Event Node} (serves : Serves node thread)
    (stepped : thread.step nodeType scaling controller event = some next) :
    ¬ thread.MovesOn event ∧ Serves node next ∨
      thread.MovesOn event ∧ ∃ arrival, event = .iterate arrival ∧ next.location = .node arrival.next := by
  cases event with
  | simulate source time slice =>
    simp only [Thread.step,Thread.simulate,Option.ite_none_right_eq_some,Option.some.injEq] at stepped
    exact absurd stepped.1 serves.simulates
  | resume slot timelineTime activationTime =>
    simp only [Thread.step,Thread.resume,Option.ite_none_right_eq_some,Option.some.injEq] at stepped
    obtain ⟨-,rfl⟩ := stepped
    exact .inl ⟨by simp [Thread.MovesOn,Thread.slot],serves.location,serves.unfinished,by simp⟩
  | iterate arrival =>
    simp only [Thread.step,Thread.iterate] at stepped
    split at stepped
    case h_2 => cases stepped
    rename_i total simulates
    cases stepped
    simp only [Thread.MovesOn,Thread.slice,Thread.slot,simulates,Option.isSome_some,Option.elim_some,true_and]
    have phase : ∀ served : Thread Node, (served.next total thread.timers.estimatedRealTime).phase ≠ .realCode := by
      intro served
      simp only [Thread.next]
      split <;> simp
    by_cases nothing : (simulateLocalServiceTime thread.remainingLocalResourceConsumption total).1 = 0
    · refine .inr ⟨nothing,arrival,rfl,?_⟩
      simp only [Thread.next,Thread.progress,nothing,ne_eq,not_true,if_false,Thread.enter,serves.location]
      rfl
    · refine .inl ⟨nothing,?_,?_,phase _⟩
      · simp only [Thread.next,Thread.progress,nothing,ne_eq,not_false_eq_true,if_true]
        exact serves.location
      · simp only [Thread.next,Thread.progress,nothing,ne_eq,not_false_eq_true,if_true]
        exact serves.unfinished
  | commit timelineTime =>
    simp only [Thread.step,Thread.commit,Option.ite_none_right_eq_some,Option.some.injEq] at stepped
    obtain ⟨-,rfl⟩ := stepped
    exact .inl ⟨by simp [Thread.MovesOn,Thread.slot],serves.location,serves.unfinished,by simp [serves.unfinished]⟩
  | wake releaseTime =>
    simp only [Thread.step,Thread.wake,Option.ite_none_right_eq_some,Option.some.injEq] at stepped
    obtain ⟨-,rfl⟩ := stepped
    exact .inl ⟨by simp [Thread.MovesOn,Thread.slot],serves.location,serves.unfinished,serves.simulates⟩

private theorem timed_slot {event : Event Node} {slot : Int} (timed : Timed thread) (isSlot : thread.slot event = some slot) :
    0 < slot := by
  cases event with
  | iterate arrival =>
    simp only [Thread.slot] at isSlot
    split at isSlot
    · rename_i total simulates
      cases isSlot
      exact timed _ simulates
    · cases isSlot
  | _ => cases isSlot

private theorem slice_fits (event : Event Node) (timed : Timed thread)
    (nonneg : 0 ≤ thread.remainingLocalResourceConsumption) :
    ∀ slot ∈ thread.slot event, 0 ≤ thread.slice event ∧ thread.slice event ≤ slot := by
  intro slot isSlot
  have positive := timed_slot timed isSlot
  have slice : (simulateLocalServiceTime thread.remainingLocalResourceConsumption slot).1 =
      min thread.remainingLocalResourceConsumption slot := served_eq_min nonneg ⟨slot,positive⟩
  rw [Thread.slice,Option.mem_def.mp isSlot,Option.elim_some]
  omega

private theorem slice_le (event : Event Node) (timed : Timed thread)
    (nonneg : 0 ≤ thread.remainingLocalResourceConsumption) :
    thread.slice event ≤ thread.remainingLocalResourceConsumption := by
  cases isSlot : thread.slot event with
  | none => rwa [Thread.slice,isSlot]
  | some slot =>
    have fits := slice_fits event timed nonneg slot isSlot
    rw [Thread.slice,isSlot,Option.elim_some] at fits ⊢
    unfold simulateLocalServiceTime at fits ⊢
    split_ifs at fits ⊢ <;> omega

private theorem slices_cons {event : Event Node} (rest : List (Event Node))
    (stepped : thread.step nodeType scaling controller event = some next) :
    thread.slices nodeType scaling controller (event :: rest) =
      ((thread.slot event).toList.map fun total => (thread.slice event,total)) ++
        next.slices nodeType scaling controller rest := by
  rw [Thread.slices,stepped,Option.elim_some]

/-- A step without a timeslot serves nothing. -/
private theorem served_cons {event : Event Node} (rest : List (Event Node))
    (stepped : thread.step nodeType scaling controller event = some next) :
    thread.served nodeType scaling controller (event :: rest) =
      thread.slice event + next.served nodeType scaling controller rest := by
  rw [Thread.served,slices_cons rest stepped,List.map_append,List.sum_append]
  cases isSlot : thread.slot event with
  | none => simp [Thread.slice,Thread.served,isSlot]
  | some slot => simp [Thread.served]

/-- By induction on the run, with what remains of the demand. -/
private theorem slices_of_run {node : Node} {last : Thread Node} {events : List (Event Node)} (timed : Timed thread)
    (serves : Serves node thread) (nonneg : 0 ≤ thread.remainingLocalResourceConsumption)
    (stays : Meets (Thread.step nodeType scaling controller) (Thread.Stays nodeType scaling controller) thread events)
    (executed : run (Thread.step nodeType scaling controller) thread events = some last) :
    (∀ slice ∈ thread.slices nodeType scaling controller events, 0 ≤ slice.1 ∧ slice.1 ≤ slice.2) ∧
      thread.served nodeType scaling controller events + last.remainingLocalResourceConsumption =
        thread.remainingLocalResourceConsumption ∧
      0 ≤ last.remainingLocalResourceConsumption ∧ Timed last ∧ Serves node last := by
  induction events generalizing thread with
  | nil =>
    cases executed
    exact ⟨nofun,zero_add _,nonneg,timed,serves⟩
  | cons event rest ih =>
    obtain ⟨next,stepped,remaining⟩ := (run_cons thread event rest last).mp executed
    obtain ⟨slices,stillServes⟩ : ¬ thread.MovesOn event ∧ Serves node next := by
      rcases serves_step serves stepped with stayed | ⟨-,arrival,-,moved⟩
      · exact stayed
      · have place := (stays.1 next stepped).trans serves.location
        exact absurd (moved.symm.trans place) (by simp)
    have conserved := remaining_step slices stepped
    have fits := slice_fits event timed nonneg
    have left := slice_le event timed nonneg
    obtain ⟨within,total,positive,later⟩ :=
      ih (timed_step timed stepped) stillServes (by omega) (stays.2 next stepped) remaining
    have head := slices_cons rest stepped
    refine ⟨?_,?_,positive,later⟩
    · intro slice member
      rw [head] at member
      rcases List.mem_append.mp member with first | inRest
      · obtain ⟨slot,isSlot,rfl⟩ := List.mem_map.mp first
        exact fits slot (Option.mem_toList.mp isSlot)
      · exact within slice inRest
    · have sum := served_cons rest stepped
      omega

end Rounds

/-- A round of a run that begins a local service with a positive demand. -/
structure LocalService where
  source : Node
  before : List (Event Node)
  arriving : Thread Node
  reached : run (Thread.step nodeType scaling controller) (start source) before = some arriving
  arrival : Arrival Node
  moves : arriving.MovesOn (.iterate arrival)
  node : Node
  demand : Int
  begins : arriving.beginning nodeType arrival = some (node,demand)
  isLocal : (nodeType node).isLocal = true
  positive : 0 < demand
  begun : Thread Node
  stepped : arriving.step nodeType scaling controller (.iterate arrival) = some begun

/-- After a run in which the thread's customer stays at its service at most the demand has been served. A round
    then takes it to the next node if it is all served, and nothing else takes it from the service. -/
structure IsServed (service : LocalService nodeType scaling controller) (during : List (Event Node)) (last : Thread Node) :
    Prop where
  within : ∀ slice ∈ service.begun.slices nodeType scaling controller during, 0 ≤ slice.1 ∧ slice.1 ≤ slice.2
  kept : service.begun.served nodeType scaling controller during + last.remainingLocalResourceConsumption = service.demand
  le_demand : service.begun.served nodeType scaling controller during ≤ service.demand
  atService : last.location = .postServiceAction service.node
  enters : ∀ arrival next, last.step nodeType scaling controller (.iterate arrival) = some next →
    service.begun.served nodeType scaling controller during = service.demand → next.location = .node arrival.next
  leaves : ∀ event next, last.step nodeType scaling controller event = some next →
    next.location ≠ .postServiceAction service.node →
      (∃ arrival, event = .iterate arrival) ∧ service.begun.served nodeType scaling controller during = service.demand

namespace LocalService
variable {nodeType scaling controller}

/-- The service has begun with its whole demand. -/
private theorem begun_eq (service : LocalService nodeType scaling controller) :
    ∃ (total before : Int) (arrived : Thread Node), arrived.isFinished = false ∧
      service.begun = (arrived.invokeService nodeType scaling service.node).next total before ∧
      arrived.serviceDemand = service.demand := by
  obtain ⟨isSlot,nothing⟩ := service.moves
  have inside : Inside service.arriving :=
    invariant (fun _ _ _ inside stepped => inside_step inside stepped) (fun finished => absurd finished Bool.false_ne_true)
      service.reached
  have stepped := service.stepped
  simp only [Thread.step,Thread.iterate] at stepped
  split at stepped
  case h_2 => cases stepped
  rename_i total simulates
  simp only [Thread.slice,Thread.slot,simulates,Option.elim_some] at nothing
  simp only [Thread.progress,nothing,ne_eq,not_true,if_false,enter_of_beginning service.begins] at stepped
  refine ⟨total,_,service.arriving.setServiceDemand service.demand,?_,(Option.some.inj stepped).symm,rfl⟩
  cases finished : service.arriving.isFinished with
  | false => exact finished
  | true =>
    rcases inside finished with commits | outside
    · exact absurd (simulates.symm.trans commits) (by simp)
    · exact absurd (simulates.symm.trans outside) (by simp)

private theorem begun_remaining (service : LocalService nodeType scaling controller) :
    service.begun.remainingLocalResourceConsumption = service.demand := by
  obtain ⟨total,before,arrived,-,begun,demand⟩ := service.begun_eq
  rw [begun,← demand]
  simp only [Thread.next,Thread.invokeService,service.isLocal,if_true]

private theorem begun_serves (service : LocalService nodeType scaling controller) : Serves service.node service.begun := by
  obtain ⟨total,before,arrived,unfinished,begun,-⟩ := service.begun_eq
  rw [begun]
  refine ⟨?_,?_,?_⟩
  · simp only [Thread.next,Thread.invokeService,service.isLocal,if_true]
    rfl
  · simp only [Thread.next,Thread.invokeService,service.isLocal,if_true]
    exact unfinished
  · simp only [Thread.next]
    split <;> simp

private theorem begun_timed (service : LocalService nodeType scaling controller) : Timed service.begun := by
  have started : Timed (start service.source) := nofun
  have arrived := invariant (fun _ _ _ timed stepped => timed_step timed stepped) started service.reached
  exact timed_step arrived service.stepped

end LocalService

/-- For all demands and timeslots the handler returns slices that fit and add up to the demand, and in all runs
    the customer moves to the next node exactly when the demand of its service has been served. -/
theorem slicing_is_transparent : (∀ demand slots, 0 < demand → ServesDemand demand slots) ∧
    ∀ {Node : Type*} (nodeType : Node → NodeType) (scaling : Scaling) (controller : Controller)
      (service : LocalService nodeType scaling controller) (during : List (Event Node)) (last : Thread Node),
      run (Thread.step nodeType scaling controller) service.begun during = some last →
      Meets (Thread.step nodeType scaling controller) (Thread.Stays nodeType scaling controller) service.begun during →
      IsServed nodeType scaling controller service during last := by
  refine ⟨fun demand slots positive => serves_of_nonneg slots demand positive.le,?_⟩
  intro Node nodeType scaling controller service during last executed stays
  have remaining := service.begun_remaining
  obtain ⟨within,kept,left,timed,serves⟩ :=
    slices_of_run service.begun_timed service.begun_serves (remaining ▸ service.positive.le) stays executed
  rw [remaining] at kept
  have moves_iff : ∀ event, (last.slot event).isSome = true →
      (last.MovesOn event ↔ service.begun.served nodeType scaling controller during = service.demand) := by
    intro event isSlot
    obtain ⟨slot,is⟩ := Option.isSome_iff_exists.mp isSlot
    have positive := timed_slot timed is
    have slice : last.slice event = min last.remainingLocalResourceConsumption slot := by
      rw [Thread.slice,is,Option.elim_some]
      exact served_eq_min left ⟨slot,positive⟩
    rw [Thread.MovesOn,slice]
    constructor
    · rintro ⟨-,nothing⟩
      omega
    · intro all
      exact ⟨isSlot,by omega⟩
  refine ⟨within,kept,by omega,serves.location,?_,?_⟩
  · intro arrival next stepped all
    have isSlot : (last.slot (.iterate arrival)).isSome = true := by
      simp only [Thread.step,Thread.iterate] at stepped
      split at stepped
      case h_2 => cases stepped
      rename_i total simulates
      simp [Thread.slot,simulates]
    rcases serves_step serves stepped with ⟨served,-⟩ | ⟨-,_,same,moved⟩
    · exact absurd ((moves_iff _ isSlot).mpr all) served
    · cases same
      exact moved
  · intro event next stepped left
    rcases serves_step serves stepped with ⟨-,stayed⟩ | ⟨moves,arrival,isRound,-⟩
    · exact absurd stayed.location left
    · exact ⟨⟨arrival,isRound⟩,(moves_iff event moves.1).mp moves⟩

end Loop

/-- A source, a delay of the thread's own host and a sink. -/
private def ownDelay : Nat → NodeType
  | 0 => .source
  | 1 => .localInfiniteServer
  | _ => .sink

private theorem enteringTime_fits : 0 ≤ (5000000 : Int) ∧ 5000000 ≤ LLONG_MAX := by decide

private theorem timeslice_pos : (0 : Int) < 1000000 := by decide

/-- A thread enters its model with a timeslice of 1 ms and draws a demand of 3 ms at the delay. -/
private def threeMilliseconds : LocalService ownDelay .unscaled .single where
  source := 0
  before := [.simulate 0 ⟨5000000,enteringTime_fits⟩ (some ⟨1000000,timeslice_pos⟩),.iterate { next := 1 }]
  arriving := _
  reached := rfl
  arrival := { sample := 3 / 1000,next := 2 }
  moves := by decide +kernel
  node := 1
  demand := 3000000
  begins := by decide +kernel
  isLocal := rfl
  positive := by decide
  begun := _
  stepped := rfl

/-- A round, and the timeslot in which the next one is made. -/
private def nextSlot : List (Event Nat) :=
  [.iterate { next := 2 },.commit ⟨0,by decide⟩,.resume ⟨1200000,by decide⟩ ⟨0,by decide⟩ ⟨0,by decide⟩]

/-- The first slice ends with the rest of the timeslice, the third one with the demand. -/
theorem three_slices_serve : ∃ last,
    IsServed ownDelay .unscaled .single threeMilliseconds (nextSlot ++ nextSlot ++ [.iterate { next := 2 }]) last ∧
    threeMilliseconds.begun.slices ownDelay .unscaled .single (nextSlot ++ nextSlot ++ [.iterate { next := 2 }]) =
      [(1000000,1000000),(1200000,1200000),(800000,1200000)] := by
  obtain ⟨last,executed,-⟩ := @exists_of_checked _ _ (Thread.step ownDelay .unscaled .single) (fun _ => true)
    threeMilliseconds.begun (nextSlot ++ nextSlot ++ [.iterate { next := 2 }]) (by decide +kernel)
  refine ⟨last,?_,by decide +kernel⟩
  exact slicing_is_transparent.2 ownDelay .unscaled .single threeMilliseconds _ last executed (by decide +kernel)

end Vexjine.ModelTime
