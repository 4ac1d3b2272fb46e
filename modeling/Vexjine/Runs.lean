import Mathlib.Tactic

/-!
# Runs of a partial step function

A machine is a step function that either refuses an event or gives the next
state. A run executes a list of events in order. The rules of this module turn
what one step preserves into what every state of every run satisfies, also for
runs whose events all meet a condition on the state before them.
-/

namespace Vexjine.Runs

variable {State Event : Type*}

/-- Executes the events in order; the run fails at the first refused event. -/
def run (step : State → Event → Option State) : State → List Event → Option State
  | state, [] => some state
  | state, event :: rest => (step state event).bind fun next => run step next rest

/-- Every event of the run meets the condition in the state before it. -/
def Meets (step : State → Event → Option State) (condition : State → Event → Prop) :
    State → List Event → Prop
  | _, [] => True
  | state, event :: rest => condition state event ∧
      ∀ next ∈ step state event, Meets step condition next rest

instance decidableMeets (step : State → Event → Option State) (condition : State → Event → Prop)
    [decidable : ∀ state event, Decidable (condition state event)] :
    (state : State) → (events : List Event) → Decidable (Meets step condition state events)
  | _, [] => .isTrue trivial
  | state, event :: rest =>
    match decidable state event with
    | .isFalse fails => .isFalse fun meets => fails meets.1
    | .isTrue holds =>
      match found : step state event with
      | none => .isTrue ⟨holds,fun next member => by simp [found] at member⟩
      | some next =>
        match decidableMeets step condition next rest with
        | .isTrue later => .isTrue ⟨holds,fun other member => by
            simp only [found,Option.mem_def,Option.some.injEq] at member
            exact member ▸ later⟩
        | .isFalse later => .isFalse fun meets => later (meets.2 next (by simp [found]))

/-- For runs of two parties or on two cores, whose numerals share this proof. -/
instance neZero_two : NeZero 2 := ⟨two_ne_zero⟩

instance (priority := high) neZero_one_add_one : NeZero (1 + 1) := neZero_two

section Rules
variable {step : State → Event → Option State} {condition : State → Event → Prop}

@[simp] theorem run_nil (state : State) : run step state [] = some state := rfl

theorem run_cons (state : State) (event : Event) (rest : List Event) (last : State) :
    run step state (event :: rest) = some last ↔
      ∃ next, step state event = some next ∧ run step next rest = some last := by
  simp [run,Option.bind_eq_some_iff]

theorem run_append (state : State) (before after : List Event) (last : State) :
    run step state (before ++ after) = some last ↔
      ∃ middle, run step state before = some middle ∧ run step middle after = some last := by
  induction before generalizing state with
  | nil => simp
  | cons event rest ih =>
    simp only [List.cons_append,run_cons,ih]
    constructor
    · rintro ⟨next,stepped,middle,first,second⟩
      exact ⟨middle,⟨next,stepped,first⟩,second⟩
    · rintro ⟨middle,⟨next,stepped,first⟩,second⟩
      exact ⟨next,stepped,middle,first,second⟩

theorem run_snoc {state middle last : State} {before : List Event} {event : Event}
    (first : run step state before = some middle) (stepped : step middle event = some last) :
    run step state (before ++ [event]) = some last :=
  (run_append state before [event] last).mpr
    ⟨middle,first,(run_cons middle event [] last).mpr ⟨last,stepped,rfl⟩⟩

theorem meets_and {other : State → Event → Prop} {state : State} {events : List Event}
    (first : Meets step condition state events) (second : Meets step other state events) :
    Meets step (fun state event => condition state event ∧ other state event) state events := by
  induction events generalizing state with
  | nil => trivial
  | cons event rest ih =>
    exact ⟨⟨first.1,second.1⟩,fun next stepped => ih (first.2 next stepped) (second.2 next stepped)⟩

/-- A run that meets a condition meets it from each of its states on. -/
theorem meets_of_append {state middle : State} {before after : List Event}
    (meets : Meets step condition state (before ++ after)) (executed : run step state before = some middle) :
    Meets step condition middle after := by
  induction before generalizing state with
  | nil =>
    cases executed
    exact meets
  | cons event rest ih =>
    obtain ⟨next,stepped,remaining⟩ := (run_cons state event rest middle).mp executed
    exact ih (meets.2 next stepped) remaining

theorem meets_of_earlier {state : State} {before after : List Event}
    (meets : Meets step condition state (before ++ after)) : Meets step condition state before := by
  induction before generalizing state with
  | nil => trivial
  | cons event rest ih => exact ⟨meets.1,fun next stepped => ih (meets.2 next stepped)⟩

/-- A run meets a condition that both its parts meet. -/
theorem meets_append {state middle : State} {before after : List Event}
    (first : Meets step condition state before) (executed : run step state before = some middle)
    (second : Meets step condition middle after) : Meets step condition state (before ++ after) := by
  induction before generalizing state with
  | nil =>
    cases executed
    exact second
  | cons event rest ih =>
    obtain ⟨next,stepped,remaining⟩ := (run_cons state event rest middle).mp executed
    refine ⟨first.1,?_⟩
    intro other same
    rw [Option.mem_def,stepped,Option.some.injEq] at same
    subst same
    exact ih (first.2 next stepped) remaining

/-- Conditions that agree on every step are met by the same runs. -/
theorem meets_congr {other : State → Event → Prop}
    (agree : ∀ state event, condition state event ↔ other state event) (state : State)
    (events : List Event) : Meets step condition state events ↔ Meets step other state events := by
  have same : condition = other := by
    funext state event
    exact propext (agree state event)
  rw [same]

/-- A property kept by every step that meets the condition holds after every run
    that meets it throughout. -/
theorem invariant_of_meets {Inv : State → Prop}
    (preserved : ∀ state event next, Inv state → condition state event →
      step state event = some next → Inv next)
    {state last : State} {events : List Event} (start : Inv state)
    (meets : Meets step condition state events) (executed : run step state events = some last) :
    Inv last := by
  induction events generalizing state with
  | nil =>
    cases executed
    exact start
  | cons event rest ih =>
    obtain ⟨next,stepped,remaining⟩ := (run_cons state event rest last).mp executed
    have kept : Inv next := preserved state event next start meets.1 stepped
    exact ih kept (meets.2 next stepped) remaining

/-- What follows from a condition wherever an invariant holds, which the condition preserves, is met by
    the same runs. -/
theorem meets_of_invariant {Inv : State → Prop} {other : State → Event → Prop}
    (preserved : ∀ state event next, Inv state → condition state event → step state event = some next → Inv next)
    (follows : ∀ state event, Inv state → condition state event → other state event) {state : State}
    (start : Inv state) {events : List Event} (meets : Meets step condition state events) :
    Meets step other state events := by
  induction events generalizing state with
  | nil => trivial
  | cons event rest ih =>
    exact ⟨follows state event start meets.1,fun next stepped =>
      ih (preserved state event next start meets.1 stepped) (meets.2 next stepped)⟩

/-- The rule without a condition. -/
theorem invariant {Inv : State → Prop}
    (preserved : ∀ state event next, Inv state → step state event = some next → Inv next)
    {state last : State} {events : List Event} (start : Inv state)
    (executed : run step state events = some last) : Inv last := by
  induction events generalizing state with
  | nil =>
    cases executed
    exact start
  | cons event rest ih =>
    obtain ⟨next,stepped,remaining⟩ := (run_cons state event rest last).mp executed
    exact ih (preserved state event next start stepped) remaining

/-- A condition that all events of a list meet in every state. -/
theorem meets_of_forall {other : Event → Prop} {events : List Event} (all : ∀ event ∈ events, other event)
    (state : State) : Meets step (fun _ event => other event) state events := by
  induction events generalizing state with
  | nil => trivial
  | cons event rest ih =>
    rw [List.forall_mem_cons] at all
    exact ⟨all.1,fun next _ => ih all.2 next⟩

/-- What follows wherever an invariant of all steps holds is met by every run. -/
theorem meets_of_steps {Inv : State → Prop} {other : State → Event → Prop}
    (preserved : ∀ state event next, Inv state → step state event = some next → Inv next)
    (follows : ∀ state event, Inv state → other state event) {state : State} (start : Inv state) (events : List Event) :
    Meets step other state events := by
  induction events generalizing state with
  | nil => trivial
  | cons event rest ih =>
    exact ⟨follows state event start,fun next stepped => ih (preserved state event next start stepped)⟩

/-- Conditions that agree wherever an invariant holds, which the first of them preserves, are met by
    the same runs. -/
theorem meets_congr_of_invariant {Inv : State → Prop} {other : State → Event → Prop}
    (preserved : ∀ state event next, Inv state → condition state event → step state event = some next → Inv next)
    (agree : ∀ state event, Inv state → (condition state event ↔ other state event)) {state : State}
    (start : Inv state) (events : List Event) : Meets step condition state events ↔ Meets step other state events := by
  induction events generalizing state with
  | nil => exact Iff.rfl
  | cons event rest ih =>
    refine (and_congr_right fun holds => forall₂_congr fun next stepped => ?_).trans
      (and_congr_left' (agree state event start))
    exact ih (preserved state event next start holds stepped)

/-- Where one step keeps a law exactly under the condition, a run keeps the law in all its states exactly
    if all its steps meet the condition. The invariant may rest on the law. -/
theorem meets_law_iff {Inv Law : State → Prop}
    (kept : ∀ state event next, Inv state → Law next → step state event = some next → Inv next)
    (sharp : ∀ state event next, Inv state → Law state → step state event = some next →
      (Law next ↔ condition state event))
    {state last : State} {events : List Event} (inv : Inv state) (law : Law state)
    (executed : run step state events = some last) :
    Meets step (fun state event => ∀ next ∈ step state event, Law next) state events ↔
      Meets step condition state events := by
  induction events generalizing state with
  | nil => exact Iff.rfl
  | cons event rest ih =>
    obtain ⟨next,stepped,remaining⟩ := (run_cons state event rest last).mp executed
    have only : ∀ other ∈ step state event, other = next := fun other same => by
      rw [Option.mem_def,stepped,Option.some.injEq] at same
      exact same.symm
    constructor
    · rintro ⟨lawful,later⟩
      have holds := lawful next stepped
      refine ⟨(sharp state event next inv law stepped).mp holds,fun other same => ?_⟩
      rw [only other same]
      exact (ih (kept state event next inv holds stepped) holds remaining).mp (later next stepped)
    · rintro ⟨meets,later⟩
      have holds := (sharp state event next inv law stepped).mpr meets
      refine ⟨fun other same => only other same ▸ holds,fun other same => ?_⟩
      rw [only other same]
      exact (ih (kept state event next inv holds stepped) holds remaining).mpr (later next stepped)

/-- Where each of a party's own steps brings it nearer to its goal and no other step takes it away, a run has
    no more of its steps than its distance. -/
theorem own_steps_le {Inv : State → Prop} {distance : State → Nat} {own : Event → Bool}
    (preserved : ∀ state event next, Inv state → condition state event → step state event = some next → Inv next)
    (nearer : ∀ state event next, Inv state → condition state event → step state event = some next →
      distance next + (if own event then 1 else 0) ≤ distance state)
    {state last : State} {events : List Event} (start : Inv state) (meets : Meets step condition state events)
    (executed : run step state events = some last) :
    distance last + (events.filter own).length ≤ distance state := by
  induction events generalizing state with
  | nil =>
    cases executed
    simp
  | cons event rest ih =>
    obtain ⟨next,stepped,remaining⟩ := (run_cons state event rest last).mp executed
    have later := ih (preserved state event next start meets.1 stepped) (meets.2 next stepped) remaining
    have closer := nearer state event next start meets.1 stepped
    cases takes : own event with
    | true =>
      rw [takes,if_pos rfl] at closer
      rw [List.filter_cons_of_pos takes,List.length_cons]
      omega
    | false =>
      rw [takes,if_neg (by simp)] at closer
      rw [List.filter_cons_of_neg (by simp [takes])]
      omega

/-- A run whose result passes a test, which can be evaluated, has a result. -/
theorem exists_of_checked {check : State → Bool} {state : State} {events : List Event}
    (checked : (run step state events).any check = true) :
    ∃ last, run step state events = some last ∧ check last = true := by
  cases executed : run step state events with
  | none => simp [executed] at checked
  | some last => exact ⟨last,rfl,by simpa [executed] using checked⟩

end Rules

/-! ## Calls that return something -/

section Calls
variable {Abstract Result : Type*}

/-- Executes the calls in order, and collects what they return. -/
def execute (call : State → Event → Option (Option Result × State)) : State → List Event → Option (List Result × State)
  | state, [] => some ([],state)
  | state, event :: rest => (call state event).bind fun called =>
    (execute call called.2 rest).map fun later => (called.1.toList ++ later.1,later.2)

/-- Calls that fail and return as the abstract ones do, do so in every execution. -/
theorem execute_simulates {specification : Abstract → Event → Option (Option Result × Abstract)}
    {call : State → Event → Option (Option Result × State)} {related : Abstract → State → Prop}
    (simulates : ∀ abstract state event, related abstract state →
      Option.Rel (fun expected called => expected.1 = called.1 ∧ related expected.2 called.2)
        (specification abstract event) (call state event))
    {abstract : Abstract} {state : State} (start : related abstract state) (events : List Event) :
    Option.Rel (fun expected executed => expected.1 = executed.1 ∧ related expected.2 executed.2)
      (execute specification abstract events) (execute call state events) := by
  induction events generalizing abstract state with
  | nil => exact .some ⟨rfl,start⟩
  | cons event rest ih =>
    rw [execute,execute]
    have first := simulates abstract state event start
    generalize specification abstract event = expected,call state event = called at first ⊢
    cases first with
    | none => exact .none
    | some agree =>
      rw [Option.bind_some,Option.bind_some]
      have later := ih agree.2
      generalize execute specification _ rest = expectedLater,execute call _ rest = calledLater at later ⊢
      cases later with
      | none => exact .none
      | some agreeLater => exact .some ⟨by simp only [agree.1,agreeLater.1],agreeLater.2⟩

end Calls

end Vexjine.Runs
