import Vexjine.Diary
import Vexjine.Heaps
import Vexjine.Runs

/-!
# The event simulator

`Sim` takes the first event from the diary, moves the clock to its time and invokes it, until the diary is empty or
`stop` says so. What an invoked event does is any sequence of schedulings and deschedulings. The answers of `stop`,
which is virtual, are part of the steps. Events are objects: each has one time for its life.
-/

namespace Vexjine.EventSimulation
open Vexjine.LinkedLists
open Vexjine.Diary
open Vexjine.Insertions
open Vexjine.Runs
set_option linter.unusedSectionVars false

variable {Event Time : Type} [DecidableEq Event] [LinearOrder Time]

/-- Outside `go`, at the head of its loop, or in an event's `invoke`. -/
inductive Position (Event : Type)
  | outside
  | looping
  | invoking (e : Event)
  deriving DecidableEq

structure Sim (Event Time : Type) where
  diary : LinkedList Event := {}
  vtime : Time
  position : Position Event := .outside

inductive Step (Event : Type)
  | schedule (e : Event)
  | deschedule (e : Event)
  | go
  /-- One test of the loop's condition, with the answers of `stop` there and after the clock has moved. -/
  | iterate (stops stopsThen : Bool)
  | returns
  deriving DecidableEq

section Program
variable (invokeTime : Event → Time)

/-- `Diary::before`. -/
def before (x y : Event) : Bool := decide (invokeTime x ≤ invokeTime y)

namespace Sim
variable (sim : Sim Event Time)

def schedule (e : Event) : Option (Sim Event Time) :=
  (sim.diary.insertInOrder (before invokeTime) e).map fun diary => { sim with diary }

def deschedule (e : Event) : Option (Sim Event Time) := (sim.diary.remove e).map fun diary => { sim with diary }

/-- The body of the loop, up to the call of `invoke`; the event is deleted where it is not invoked. -/
def iterate (stops stopsThen : Bool) : Option (Sim Event Time) :=
  if sim.diary.isEmpty || stops then some { sim with position := .outside }
  else sim.diary.removeFromFront.map fun removed =>
    { diary := removed.2,vtime := invokeTime removed.1
      position := if stopsThen then .looping else .invoking removed.1 }

end Sim

/-- The code that calls the simulator runs outside `go` and in the events. -/
def step (sim : Sim Event Time) : Step Event → Option (Sim Event Time)
  | .schedule e => if sim.position = .looping then none else sim.schedule invokeTime e
  | .deschedule e => if sim.position = .looping then none else sim.deschedule e
  | .go => if sim.position = .outside then some { sim with position := .looping } else none
  | .iterate stops stopsThen => if sim.position = .looping then sim.iterate invokeTime stops stopsThen else none
  | .returns =>
    match sim.position with
    | .invoking _ => some { sim with position := .looping }
    | .outside | .looping => none

/-! ## What has happened -/

/-- The schedulings are numbered in their order. Each ends in an invocation, a descheduling or, where `stop` says so
    after the clock has moved, in nothing. -/
structure History (Event : Type) where
  calls : Nat := 0
  number : Event → Nat := fun _ => 0
  invoked : List (Nat × Event) := []
  descheduled : List Nat := []
  dropped : List Nat := []

structure Recorded (Event Time : Type) where
  sim : Sim Event Time
  history : History Event := {}

/-- The history after a step, with the event that the loop has taken from the diary. -/
def History.after (history : History Event) (taken : Option Event) : Step Event → History Event
  | .schedule e => { history with calls := history.calls + 1,number := Function.update history.number e history.calls }
  | .deschedule e => { history with descheduled := history.descheduled ++ [history.number e] }
  | .iterate _ stopsThen =>
    match taken with
    | none => history
    | some e =>
      if stopsThen then { history with dropped := history.dropped ++ [history.number e] }
      else { history with invoked := history.invoked ++ [(history.number e,e)] }
  | .go | .returns => history

def Sim.taken (sim : Sim Event Time) : Step Event → Option Event
  | .iterate stops _ =>
    if sim.diary.isEmpty || stops then none else sim.diary.removeFromFront.map Prod.fst
  | .schedule _ | .deschedule _ | .go | .returns => none

def record (state : Recorded Event Time) (s : Step Event) : Option (Recorded Event Time) :=
  (step invokeTime state.sim s).map fun sim => ⟨sim,state.history.after (state.sim.taken s) s⟩

/-- An event is scheduled for a time that is not past, once at a time and not while it is invoked, after which it is
    deleted; only pending ones are descheduled. -/
def Legal (state : Recorded Event Time) : Step Event → Prop
  | .schedule e =>
    state.sim.vtime ≤ invokeTime e ∧ e ∉ state.sim.diary.contents ∧ state.sim.position ≠ .invoking e
  | .deschedule e => e ∈ state.sim.diary.contents
  | .go | .iterate .. | .returns => True

instance (state : Recorded Event Time) : (s : Step Event) → Decidable (Legal invokeTime state s)
  | .schedule _ => inferInstanceAs (Decidable (_ ∧ _))
  | .deschedule _ => inferInstanceAs (Decidable (_ ∈ _))
  | .go | .iterate .. | .returns => .isTrue trivial

/-- The step is one that the simulator is at. -/
def Turn (sim : Sim Event Time) : Step Event → Prop
  | .schedule _ | .deschedule _ => sim.position ≠ .looping
  | .go => sim.position = .outside
  | .iterate .. => sim.position = .looping
  | .returns => ∃ e, sim.position = .invoking e

/-- One scheduling comes before another one in the diary. -/
def Earlier (a b : Nat × Event) : Prop :=
  invokeTime a.2 < invokeTime b.2 ∨ invokeTime a.2 = invokeTime b.2 ∧ a.1 < b.1

/-- The order of a run. -/
structure Orderly (start : Recorded Event Time) (steps : List (Step Event)) (last : Recorded Event Time) : Prop where
  clock : ∀ earlier later middle, steps = earlier ++ later → run (record invokeTime) start earlier = some middle →
    middle.sim.vtime ≤ last.sim.vtime
  order : last.history.invoked.Pairwise (Earlier invokeTime)
  /-- Every scheduling is in one place. -/
  once : (last.history.invoked.map Prod.fst ++ last.history.descheduled ++ last.history.dropped ++
    last.sim.diary.contents.map last.history.number).Perm (List.range last.history.calls)
  /-- What is still pending is not overdue. -/
  due : ∀ e ∈ last.sim.diary.contents, last.sim.vtime ≤ invokeTime e
  /-- No step that is legal meets a null pointer. -/
  safe : ∀ s, Legal invokeTime last s → Turn last.sim s → ∃ next, record invokeTime last s = some next
  unstopped : (∀ stops, .iterate stops true ∉ steps) → last.history.dropped = []
  /-- A loop that `stop` does not end leaves an empty diary. -/
  finished : ∀ earlier stopsThen, steps = earlier ++ [.iterate false stopsThen] → last.sim.position = .outside →
    last.sim.diary.contents = []

end Program

/-! ## Insertion in order -/

section Insertion
variable {invokeTime : Event → Time} {number : Event → Nat} {objects : List Event} {e : Event}

/-- The pending schedulings, as the diary has them. -/
private def entries (number : Event → Nat) (objects : List Event) : List (Nat × Event) :=
  objects.map fun e => (number e,e)

private theorem entries_update (absent : e ∉ objects) (calls : Nat) :
    entries (Function.update number e calls) objects = entries number objects := by
  apply List.map_congr_left
  intro other member
  have differs : other ≠ e := by
    rintro rfl
    exact absent member
  rw [Function.update_of_ne differs]

private theorem sorted_times (sorted : (entries number objects).Pairwise (Earlier invokeTime)) :
    objects.Pairwise fun x y => invokeTime x ≤ invokeTime y := by
  refine (List.pairwise_map.mp sorted).imp ?_
  rintro x y (less | ⟨same,_⟩)
  · exact less.le
  · exact same.le

/-- An event scheduled after all others goes behind those of its time. -/
private theorem sorted_insert {calls : Nat} (sorted : (entries number objects).Pairwise (Earlier invokeTime))
    (below : ∀ other ∈ objects, number other < calls) (absent : e ∉ objects) :
    (entries (Function.update number e calls)
      (objects.takeWhile (before invokeTime · e) ++ e :: objects.dropWhile (before invokeTime · e))).Pairwise
        (Earlier invokeTime) := by
  have absent_front : e ∉ objects.takeWhile (before invokeTime · e) := fun member =>
    absent ((List.takeWhile_sublist _).mem member)
  have absent_back : e ∉ objects.dropWhile (before invokeTime · e) := fun member =>
    absent ((List.dropWhile_sublist _).mem member)
  have split : entries (Function.update number e calls)
      (objects.takeWhile (before invokeTime · e) ++ e :: objects.dropWhile (before invokeTime · e)) =
      entries number (objects.takeWhile (before invokeTime · e)) ++
        (calls,e) :: entries number (objects.dropWhile (before invokeTime · e)) := by
    rw [← entries_update absent_front calls,← entries_update absent_back calls]
    simp [entries]
  have whole : entries number (objects.takeWhile (before invokeTime · e)) ++
      entries number (objects.dropWhile (before invokeTime · e)) = entries number objects := by
    rw [entries,entries,← List.map_append,List.takeWhile_append_dropWhile,entries]
  have later : ∀ other ∈ objects.dropWhile (before invokeTime · e), invokeTime e < invokeTime other :=
    later_of_dropWhile (sorted_times sorted)
  rw [← whole,List.pairwise_append] at sorted
  obtain ⟨front,back,across⟩ := sorted
  have before_new : ∀ a ∈ entries number (objects.takeWhile (before invokeTime · e)), Earlier invokeTime a (calls,e) := by
    intro a member
    obtain ⟨other,place,rfl⟩ := List.mem_map.mp member
    have passes : invokeTime other ≤ invokeTime e := by simpa [before] using List.mem_takeWhile_imp place
    rcases passes.lt_or_eq with less | same
    · exact Or.inl less
    · exact Or.inr ⟨same,below other ((List.takeWhile_sublist _).mem place)⟩
  have after_new : ∀ b ∈ entries number (objects.dropWhile (before invokeTime · e)), Earlier invokeTime (calls,e) b := by
    intro b member
    obtain ⟨other,place,rfl⟩ := List.mem_map.mp member
    exact Or.inl (later other place)
  rw [split,List.pairwise_append,List.pairwise_cons]
  refine ⟨front,⟨after_new,back⟩,?_⟩
  intro a member b behind
  rcases List.mem_cons.mp behind with rfl | behind
  · exact before_new a member
  · exact across a member b behind

end Insertion

/-! ## What the operations do -/

section Operations
variable {invokeTime : Event → Time} {sim : Sim Event Time} {objects : List Event} {e : Event}

theorem holds_schedule (holds : Holds sim.diary objects) (invokeTime : Event → Time) (e : Event) :
    ∃ diary later, sim.schedule invokeTime e = some { sim with diary } ∧ Holds diary later ∧
      later.Perm (e :: objects) := by
  obtain ⟨diary,inserted,holds'⟩ := holds_insertInOrder holds (before invokeTime) e
  refine ⟨diary,_,?_,holds',perm_insertion _ e objects⟩
  rw [Sim.schedule,inserted,Option.map_some]

theorem holds_deschedule (holds : Holds sim.diary objects) (member : e ∈ objects) :
    ∃ diary, sim.deschedule e = some { sim with diary } ∧ Holds diary (objects.erase e) := by
  obtain ⟨diary,removed,holds'⟩ := holds_remove holds member
  refine ⟨diary,?_,holds'⟩
  rw [Sim.deschedule,removed,Option.map_some]

/-- A diary in the order of time, of which nothing is overdue. -/
structure Timely (invokeTime : Event → Time) (sim : Sim Event Time) (objects : List Event) : Prop where
  holds : Holds sim.diary objects
  sorted : objects.Pairwise fun x y => invokeTime x ≤ invokeTime y
  due : ∀ e ∈ objects, sim.vtime ≤ invokeTime e

theorem timely_schedule (timely : Timely invokeTime sim objects) (time : sim.vtime ≤ invokeTime e) :
    ∃ diary later, sim.schedule invokeTime e = some { sim with diary } ∧ Timely invokeTime { sim with diary } later ∧
      later.Perm (e :: objects) := by
  obtain ⟨diary,inserted,holds⟩ := holds_insertInOrder timely.holds (before invokeTime) e
  have arranged := perm_insertion (before invokeTime · e) e objects
  refine ⟨diary,_,by rw [Sim.schedule,inserted,Option.map_some],⟨holds,sorted_insertion timely.sorted,?_⟩,arranged⟩
  intro other member
  rcases List.mem_cons.mp (arranged.subset member) with rfl | member
  · exact time
  · exact timely.due other member

theorem timely_deschedule (timely : Timely invokeTime sim objects) (member : e ∈ objects) :
    ∃ diary, sim.deschedule e = some { sim with diary } ∧ Timely invokeTime { sim with diary } (objects.erase e) := by
  obtain ⟨diary,descheduled,holds⟩ := holds_deschedule timely.holds member
  refine ⟨diary,descheduled,holds,timely.sorted.sublist List.erase_sublist,?_⟩
  exact fun other pending => timely.due other (List.erase_sublist.mem pending)

/-- The clock moves forward to the first event. -/
theorem timely_removeFromFront (timely : Timely invokeTime sim (e :: objects)) (position : Position Event) :
    sim.vtime ≤ invokeTime e ∧ ∃ diary, sim.diary.removeFromFront = some (e,diary) ∧
      Timely invokeTime ⟨diary,invokeTime e,position⟩ objects := by
  obtain ⟨diary,removed,holds⟩ := holds_removeFromFront timely.holds
  obtain ⟨first,sorted⟩ := List.pairwise_cons.mp timely.sorted
  exact ⟨timely.due e List.mem_cons_self,diary,removed,holds,sorted,first⟩

end Operations

/-! ## The invariant -/

/-- The diary, the clock and the history of a run. -/
structure Kept (invokeTime : Event → Time) (state : Recorded Event Time) (objects : List Event) : Prop where
  holds : Holds state.sim.diary objects
  distinct : objects.Nodup
  sorted : (entries state.history.number objects).Pairwise (Earlier invokeTime)
  due : ∀ e ∈ objects, state.sim.vtime ≤ invokeTime e
  order : state.history.invoked.Pairwise (Earlier invokeTime)
  past : ∀ a ∈ state.history.invoked, invokeTime a.2 ≤ state.sim.vtime
  behind : ∀ a ∈ state.history.invoked, ∀ b ∈ entries state.history.number objects, Earlier invokeTime a b
  once : (state.history.invoked.map Prod.fst ++ state.history.descheduled ++ state.history.dropped ++
    objects.map state.history.number).Perm (List.range state.history.calls)

section Steps
variable {invokeTime : Event → Time} {state next : Recorded Event Time} {objects : List Event} {e : Event} {s : Step Event}

private theorem pending_below (kept : Kept invokeTime state objects) :
    ∀ other ∈ objects, state.history.number other < state.history.calls := by
  intro other member
  apply List.mem_range.mp
  apply kept.once.subset
  simp only [List.mem_append]
  exact Or.inr (List.mem_map_of_mem member)

private theorem invoked_below (kept : Kept invokeTime state objects) :
    ∀ a ∈ state.history.invoked, a.1 < state.history.calls := by
  intro a member
  apply List.mem_range.mp
  apply kept.once.subset
  simp only [List.mem_append]
  exact Or.inl (Or.inl (Or.inl (List.mem_map_of_mem member)))

private theorem kept_schedule {diary : LinkedList Event} (kept : Kept invokeTime state objects)
    (time : state.sim.vtime ≤ invokeTime e) (absent : e ∉ objects)
    (inserted : state.sim.diary.insertInOrder (before invokeTime) e = some diary) :
    Kept invokeTime ⟨{ state.sim with diary },state.history.after none (.schedule e)⟩
      (objects.takeWhile (before invokeTime · e) ++ e :: objects.dropWhile (before invokeTime · e)) := by
  obtain ⟨found,same,holds⟩ := holds_insertInOrder kept.holds (before invokeTime) e
  rw [inserted,Option.some.injEq] at same
  subst same
  have arranged := perm_insertion (before invokeTime · e) e objects
  constructor
  case holds => exact holds
  case distinct => exact arranged.nodup_iff.mpr (List.nodup_cons.mpr ⟨absent,kept.distinct⟩)
  case sorted => exact sorted_insert kept.sorted (pending_below kept) absent
  case due =>
    intro other member
    rcases List.mem_cons.mp (arranged.subset member) with rfl | member
    · exact time
    · exact kept.due other member
  case order => exact kept.order
  case past => exact kept.past
  case behind =>
    intro a invoked b member
    obtain ⟨other,place,rfl⟩ := List.mem_map.mp member
    rcases List.mem_cons.mp (arranged.subset place) with rfl | pending
    · show Earlier invokeTime a (Function.update state.history.number other state.history.calls other,other)
      rw [Function.update_self]
      rcases ((kept.past a invoked).trans time).lt_or_eq with less | same
      · exact Or.inl less
      · exact Or.inr ⟨same,invoked_below kept a invoked⟩
    · have differs : other ≠ e := by
        rintro rfl
        exact absent pending
      show Earlier invokeTime a (Function.update state.history.number e state.history.calls other,other)
      rw [Function.update_of_ne differs]
      exact kept.behind a invoked _ (List.mem_map_of_mem pending)
  case once =>
    have numbers : ((objects.takeWhile (before invokeTime · e) ++ e :: objects.dropWhile (before invokeTime · e)).map
        (Function.update state.history.number e state.history.calls)).Perm
          (state.history.calls :: objects.map state.history.number) := by
      refine (arranged.map _).trans ?_
      rw [List.map_cons,Function.update_self]
      apply List.Perm.cons
      rw [List.map_congr_left]
      intro other member
      have differs : other ≠ e := by
        rintro rfl
        exact absent member
      rw [Function.update_of_ne differs]
    refine (numbers.append_left _).trans ?_
    refine List.perm_middle.trans ?_
    show (_ :: _).Perm (List.range (state.history.calls + 1))
    rw [List.range_succ]
    exact (kept.once.cons _).trans (List.perm_append_singleton _ _).symm

private theorem kept_deschedule {diary : LinkedList Event} (kept : Kept invokeTime state objects) (member : e ∈ objects)
    (removed : state.sim.diary.remove e = some diary) :
    Kept invokeTime ⟨{ state.sim with diary },state.history.after none (.deschedule e)⟩ (objects.erase e) := by
  obtain ⟨found,same,holds⟩ := holds_remove kept.holds member
  rw [removed,Option.some.injEq] at same
  subst same
  have fewer : (objects.erase e).Sublist objects := List.erase_sublist
  constructor
  case holds => exact holds
  case distinct => exact kept.distinct.sublist fewer
  case sorted => exact kept.sorted.sublist (fewer.map _)
  case due => exact fun other pending => kept.due other (fewer.mem pending)
  case order => exact kept.order
  case past => exact kept.past
  case behind => exact fun a invoked b pending => kept.behind a invoked b ((fewer.map _).mem pending)
  case once =>
    have numbers : (objects.map state.history.number).Perm
        (state.history.number e :: (objects.erase e).map state.history.number) :=
      (List.perm_cons_erase member).map _
    refine List.Perm.trans ?_ kept.once
    refine List.Perm.trans ?_ (numbers.symm.append_left _)
    show (state.history.invoked.map Prod.fst ++ (state.history.descheduled ++ [state.history.number e]) ++
      state.history.dropped ++ (objects.erase e).map state.history.number).Perm _
    simp only [List.append_assoc,List.singleton_append]
    exact (List.perm_middle.symm.append_left _).append_left _

/-- The first event leaves the diary, and the clock moves to its time. -/
private theorem kept_taken {diary : LinkedList Event} (kept : Kept invokeTime state (e :: objects))
    (removed : state.sim.diary.removeFromFront = some (e,diary)) (stops stopsThen : Bool) :
    state.sim.vtime ≤ invokeTime e ∧
      Kept invokeTime ⟨⟨diary,invokeTime e,if stopsThen then .looping else .invoking e⟩,
        state.history.after (some e) (.iterate stops stopsThen)⟩ objects := by
  obtain ⟨found,same,holds⟩ := holds_removeFromFront kept.holds
  rw [removed,Option.some.injEq,Prod.mk.injEq] at same
  obtain ⟨_,rfl⟩ := same
  obtain ⟨first,sorted⟩ := List.pairwise_cons.mp kept.sorted
  have forward : state.sim.vtime ≤ invokeTime e := kept.due e (List.mem_cons_self)
  have distinct : objects.Nodup := (List.nodup_cons.mp kept.distinct).2
  have due : ∀ other ∈ objects, invokeTime e ≤ invokeTime other := by
    intro other member
    rcases first _ (List.mem_map_of_mem member) with later | ⟨same,_⟩
    · exact later.le
    · exact same.le
  have past : ∀ a ∈ state.history.invoked, invokeTime a.2 ≤ invokeTime e := fun a invoked =>
    (kept.past a invoked).trans forward
  have behind : ∀ a ∈ state.history.invoked, ∀ b ∈ entries state.history.number objects, Earlier invokeTime a b :=
    fun a invoked b pending => kept.behind a invoked b (List.mem_cons_of_mem _ pending)
  refine ⟨forward,?_⟩
  cases stopsThen with
  | true =>
    refine ⟨holds,distinct,sorted,due,kept.order,past,behind,?_⟩
    refine List.Perm.trans ?_ kept.once
    show (state.history.invoked.map Prod.fst ++ state.history.descheduled ++
      (state.history.dropped ++ [state.history.number e]) ++ objects.map state.history.number).Perm _
    simp
  | false =>
    refine ⟨holds,distinct,sorted,due,?_,?_,?_,?_⟩
    · refine List.pairwise_append.mpr ⟨kept.order,List.pairwise_singleton _ _,?_⟩
      intro a invoked b new
      rw [List.mem_singleton] at new
      subst new
      exact kept.behind a invoked _ (List.mem_cons_self)
    · intro a member
      rcases List.mem_append.mp member with invoked | new
      · exact past a invoked
      · rw [List.mem_singleton] at new
        subst new
        exact le_rfl
    · intro a member b pending
      rcases List.mem_append.mp member with invoked | new
      · exact behind a invoked b pending
      · rw [List.mem_singleton] at new
        subst new
        exact first b pending
    · refine List.Perm.trans ?_ kept.once
      show ((state.history.invoked ++ [(state.history.number e,e)]).map Prod.fst ++ state.history.descheduled ++
        state.history.dropped ++ objects.map state.history.number).Perm _
      simp only [List.map_append,List.map_cons,List.map_nil,List.append_assoc,List.singleton_append]
      apply List.Perm.append_left
      have moved := @List.perm_middle _ (state.history.number e) (state.history.descheduled ++ state.history.dropped)
        (objects.map state.history.number)
      simpa using moved.symm

/-- A legal step whose turn it is does not fail. -/
private theorem step_safe (kept : Kept invokeTime state objects) (legal : Legal invokeTime state s)
    (turn : Turn state.sim s) : ∃ next, record invokeTime state s = some next := by
  suffices moved : ∃ sim, step invokeTime state.sim s = some sim by
    obtain ⟨sim,moved⟩ := moved
    exact ⟨_,congrArg (Option.map _) moved⟩
  cases s with
  | schedule e =>
    obtain ⟨diary,inserted,_⟩ := holds_insertInOrder kept.holds (before invokeTime) e
    refine ⟨{ state.sim with diary },?_⟩
    rw [step,if_neg turn,Sim.schedule,inserted,Option.map_some]
  | deschedule e =>
    have member : e ∈ objects := contents_eq kept.holds ▸ legal
    obtain ⟨diary,removed,_⟩ := holds_remove kept.holds member
    refine ⟨{ state.sim with diary },?_⟩
    rw [step,if_neg turn,Sim.deschedule,removed,Option.map_some]
  | go => exact ⟨_,if_pos turn⟩
  | iterate stops stopsThen =>
    have looping : state.sim.position = .looping := turn
    rw [step,if_pos looping,Sim.iterate]
    by_cases ends : (state.sim.diary.isEmpty || stops) = true
    · exact ⟨_,if_pos ends⟩
    · rw [if_neg ends]
      cases objects with
      | nil =>
        rw [(holds_isEmpty kept.holds).mpr rfl] at ends
        exact absurd rfl ends
      | cons first rest =>
        obtain ⟨diary,removed,_⟩ := holds_removeFromFront kept.holds
        rw [removed]
        exact ⟨_,rfl⟩
  | returns =>
    obtain ⟨e,place⟩ := turn
    rw [step,place]
    exact ⟨_,rfl⟩

/-- A step keeps the diary and its books, and the clock does not go back. -/
private theorem step_kept (kept : Kept invokeTime state objects) (legal : Legal invokeTime state s)
    (stepped : record invokeTime state s = some next) :
    state.sim.vtime ≤ next.sim.vtime ∧ ∃ objects, Kept invokeTime next objects := by
  obtain ⟨sim,moved,rfl⟩ := Option.map_eq_some_iff.mp stepped
  cases s with
  | schedule e =>
    obtain ⟨time,absent,_⟩ := legal
    rw [contents_eq kept.holds] at absent
    simp only [step,Option.ite_none_left_eq_some,Sim.schedule,Option.map_eq_some_iff] at moved
    obtain ⟨_,diary,inserted,rfl⟩ := moved
    exact ⟨le_rfl,_,kept_schedule kept time absent inserted⟩
  | deschedule e =>
    have member : e ∈ objects := contents_eq kept.holds ▸ legal
    simp only [step,Option.ite_none_left_eq_some,Sim.deschedule,Option.map_eq_some_iff] at moved
    obtain ⟨_,diary,removed,rfl⟩ := moved
    exact ⟨le_rfl,_,kept_deschedule kept member removed⟩
  | go =>
    simp only [step,Option.ite_none_right_eq_some,Option.some.injEq] at moved
    obtain ⟨_,rfl⟩ := moved
    exact ⟨le_rfl,objects,{ kept with }⟩
  | iterate stops stopsThen =>
    simp only [step,Option.ite_none_right_eq_some,Sim.iterate] at moved
    obtain ⟨_,moved⟩ := moved
    by_cases ends : (state.sim.diary.isEmpty || stops) = true
    · rw [if_pos ends,Option.some.injEq] at moved
      subst moved
      have nothing : state.sim.taken (.iterate stops stopsThen) = none := if_pos ends
      rw [nothing]
      exact ⟨le_rfl,objects,{ kept with }⟩
    · rw [if_neg ends,Option.map_eq_some_iff] at moved
      obtain ⟨⟨e,diary⟩,removed,rfl⟩ := moved
      have taken : state.sim.taken (.iterate stops stopsThen) = some e := by
        simp only [Sim.taken,if_neg ends,removed,Option.map_some]
      rw [taken]
      cases objects with
      | nil =>
        rw [(holds_isEmpty kept.holds).mpr rfl] at ends
        exact absurd rfl ends
      | cons first rest =>
        obtain ⟨found,same,_⟩ := holds_removeFromFront kept.holds
        rw [removed,Option.some.injEq,Prod.mk.injEq] at same
        obtain ⟨rfl,_⟩ := same
        obtain ⟨forward,kept'⟩ := kept_taken kept removed stops stopsThen
        exact ⟨forward,rest,kept'⟩
  | returns =>
    cases place : state.sim.position with
    | invoking e =>
      simp only [step,place,Option.some.injEq] at moved
      subst moved
      exact ⟨le_rfl,objects,{ kept with }⟩
    | outside | looping => simp [step,place] at moved

end Steps

/-! ## Runs -/

section Laws
variable {invokeTime : Event → Time} {start last : Recorded Event Time} {steps : List (Step Event)}

/-- A simulator as its constructor leaves it. -/
def initial (Event : Type) (now : Time) : Recorded Event Time := ⟨{ vtime := now },{}⟩

private theorem kept_initial (now : Time) : Kept invokeTime (initial Event now) [] where
  holds := holds_empty
  distinct := List.nodup_nil
  sorted := List.Pairwise.nil
  due _ member := absurd member (List.not_mem_nil)
  order := List.Pairwise.nil
  past _ member := absurd member (List.not_mem_nil)
  behind _ member := absurd member (List.not_mem_nil)
  once := List.Perm.nil

private theorem clock_forward {objects : List Event} (kept : Kept invokeTime start objects)
    (executed : run (record invokeTime) start steps = some last)
    (legal : Meets (record invokeTime) (Legal invokeTime) start steps) :
    start.sim.vtime ≤ last.sim.vtime ∧ ∃ objects, Kept invokeTime last objects := by
  induction steps generalizing start objects with
  | nil =>
    cases executed
    exact ⟨le_rfl,objects,kept⟩
  | cons s rest ih =>
    obtain ⟨next,stepped,remaining⟩ := (run_cons _ _ _ _).mp executed
    obtain ⟨forward,others,kept'⟩ := step_kept kept legal.1 stepped
    obtain ⟨further,kept_last⟩ := ih kept' remaining (legal.2 next stepped)
    exact ⟨forward.trans further,kept_last⟩

private theorem step_dropped {state next : Recorded Event Time} {s : Step Event}
    (goes : ∀ stops, s ≠ .iterate stops true) (stepped : record invokeTime state s = some next) :
    next.history.dropped = state.history.dropped := by
  obtain ⟨sim,_,rfl⟩ := Option.map_eq_some_iff.mp stepped
  cases s with
  | schedule _ | deschedule _ | go | returns => rfl
  | iterate stops stopsThen =>
    cases stopsThen with
    | true => exact absurd rfl (goes stops)
    | false => cases state.sim.taken (.iterate stops false) <;> rfl

private theorem undropped (goes : ∀ stops, .iterate stops true ∉ steps)
    (executed : run (record invokeTime) start steps = some last) :
    last.history.dropped = start.history.dropped := by
  induction steps generalizing start with
  | nil =>
    cases executed
    rfl
  | cons s rest ih =>
    obtain ⟨next,stepped,remaining⟩ := (run_cons _ _ _ _).mp executed
    have later := ih (fun stops member => goes stops (List.mem_cons_of_mem _ member)) remaining
    have first : ∀ stops, s ≠ .iterate stops true := by
      rintro stops rfl
      exact goes stops (List.mem_cons_self)
    exact later.trans (step_dropped first stepped)

/-- Wherever the loop leaves an event without being told to stop, it invokes it next. -/
private theorem empty_at_end {state next : Recorded Event Time} {objects : List Event} {stopsThen : Bool}
    (kept : Kept invokeTime state objects) (stepped : record invokeTime state (.iterate false stopsThen) = some next)
    (outside : next.sim.position = .outside) : next.sim.diary.contents = [] := by
  obtain ⟨sim,moved,rfl⟩ := Option.map_eq_some_iff.mp stepped
  simp only [step,Option.ite_none_right_eq_some,Sim.iterate,Bool.or_false] at moved
  obtain ⟨_,moved⟩ := moved
  by_cases empty : state.sim.diary.isEmpty = true
  · rw [if_pos empty,Option.some.injEq] at moved
    subst moved
    have nothing := (holds_isEmpty kept.holds).mp empty
    subst nothing
    exact contents_eq kept.holds
  · rw [if_neg empty,Option.map_eq_some_iff] at moved
    obtain ⟨removed,_,rfl⟩ := moved
    cases stopsThen <;> cases outside

/-- Every run of the simulator whose events schedule nothing for the past fires in the order of time and, within one
    time, of scheduling; every scheduling comes to exactly one end. -/
theorem simulation_orderly (invokeTime : Event → Time) (now : Time) (steps : List (Step Event))
    (last : Recorded Event Time) (executed : run (record invokeTime) (initial Event now) steps = some last)
    (legal : Meets (record invokeTime) (Legal invokeTime) (initial Event now) steps) :
    Orderly invokeTime (initial Event now) steps last := by
  obtain ⟨_,objects,kept⟩ := clock_forward (kept_initial now) executed legal
  have contents : last.sim.diary.contents = objects := contents_eq kept.holds
  constructor
  case clock =>
    rintro earlier later middle rfl reached
    obtain ⟨_,_,kept_middle⟩ := clock_forward (kept_initial now) reached (Runs.meets_of_earlier legal)
    obtain ⟨other,same,remaining⟩ := (run_append _ _ _ _).mp executed
    rw [reached,Option.some.injEq] at same
    subst same
    exact (clock_forward kept_middle remaining (meets_of_append legal reached)).1
  case order => exact kept.order
  case once =>
    rw [contents]
    exact kept.once
  case due =>
    rw [contents]
    exact kept.due
  case safe => exact fun s legal turn => step_safe kept legal turn
  case unstopped => exact fun goes => undropped goes executed
  case finished =>
    rintro earlier stopsThen rfl outside
    obtain ⟨middle,reached,remaining⟩ := (run_append _ _ _ _).mp executed
    obtain ⟨_,_,kept_middle⟩ := clock_forward (kept_initial now) reached (Runs.meets_of_earlier legal)
    obtain ⟨next,stepped,nothing⟩ := (run_cons _ _ _ _).mp remaining
    rw [run_nil,Option.some.injEq] at nothing
    subst nothing
    exact empty_at_end kept_middle stepped outside

end Laws

/-! ## Two runs -/

/-- Two events of one time, the second of which is descheduled by an earlier one that schedules a third. -/
private def equalTimes : List (Step (Nat × Nat)) :=
  [.schedule (5,0),.schedule (5,1),.schedule (3,2),.go,.iterate false false,.schedule (5,3),.deschedule (5,1),.returns,
    .iterate false false,.returns,.iterate false false,.returns,.iterate false false]

theorem simulation_orderly_equal_times : ∃ last,
    run (record Prod.fst) (initial (Nat × Nat) 0) equalTimes = some last ∧
      Orderly Prod.fst (initial (Nat × Nat) 0) equalTimes last ∧
      last.history.invoked = [(2,(3,2)),(0,(5,0)),(3,(5,3))] := by
  obtain ⟨last,executed,checked⟩ := @exists_of_checked _ _ (record Prod.fst)
    (fun last : Recorded (Nat × Nat) Nat => decide (last.history.invoked = [(2,(3,2)),(0,(5,0)),(3,(5,3))]))
    (initial (Nat × Nat) 0) equalTimes (by decide +kernel)
  exact ⟨last,executed,simulation_orderly Prod.fst 0 equalTimes last executed (by decide +kernel),
    of_decide_eq_true checked⟩

/-- `stop` becomes true when the clock has moved to the second event. -/
private def stopped : List (Step (Nat × Nat)) :=
  [.schedule (1,0),.schedule (6,1),.go,.iterate false false,.returns,.iterate false true,.iterate true true]

/-- An event that is scheduled and not descheduled is never invoked where the run is stopped. -/
theorem stopped_event_lost : ∃ last,
    run (record Prod.fst) (initial (Nat × Nat) 0) stopped = some last ∧
      Meets (record Prod.fst) (Legal Prod.fst) (initial (Nat × Nat) 0) stopped ∧
      last.sim.position = .outside ∧ 6 ≤ last.sim.vtime ∧ 1 < last.history.calls ∧
      1 ∉ last.history.invoked.map Prod.fst ∧ 1 ∉ last.history.descheduled := by
  obtain ⟨last,executed,checked⟩ := @exists_of_checked _ _ (record Prod.fst)
    (fun last : Recorded (Nat × Nat) Nat => decide (last.sim.position = .outside ∧ 6 ≤ last.sim.vtime ∧
      1 < last.history.calls ∧ 1 ∉ last.history.invoked.map Prod.fst ∧ 1 ∉ last.history.descheduled))
    (initial (Nat × Nat) 0) stopped (by decide +kernel)
  exact ⟨last,executed,by decide +kernel,of_decide_eq_true checked⟩

end Vexjine.EventSimulation
