import Mathlib.Tactic

/-!
# Instruction lists with exception tables

The body of a method is a list of labels and instructions with a table of
exception handlers, and its runs are the steps of a machine that says what each
instruction may do.
-/

namespace Vexjine.InstructionLists

universe u
variable {Label Insn Kind Event State Exc Result : Type u}

/-- A label, or an instruction with those added in front of it. -/
inductive Item (Label Insn : Type u)
  | label (label : Label)
  | insn (added : List Insn) (insn : Insn)

/-- An entry of the exception table. One without a kind catches everything. -/
structure Handler (Label Kind : Type u) where
  start : Label
  stop : Label
  target : Label
  kind : Option Kind

/-- The body of a method. The first handler that applies catches. -/
structure Body (Label Insn Kind : Type u) where
  items : List (Item Label Insn)
  handlers : List (Handler Label Kind)

/-- What an instruction can do: go on, jump, raise an exception or return. -/
inductive Outcome (Label State Exc Result : Type u)
  | next (state : State)
  | jump (label : Label) (state : State)
  | raise (exc : Exc)
  | finish (result : Result)

/-- How a run of a body ends. -/
inductive Ending (Exc Result : Type u)
  | returned (result : Result)
  | raised (exc : Exc)

/-- The meaning of the instructions: what they may do in a state, with the events they emit; which kinds
    catch an exception; and the state in which its handler starts. -/
structure Machine (Label Insn Kind Event State Exc Result : Type u) where
  effect : Insn → State → List Event → Outcome Label State Exc Result → Prop
  catches : Kind → Exc → Bool
  caught : State → Exc → State

/-- A run is between what is before and the rest of the items, or has ended. -/
inductive Config (Label Insn State Exc Result : Type u)
  | running (before rest : List (Item Label Insn)) (state : State)
  | ended (ending : Ending Exc Result)

/-- Where a run of the body starts. -/
def Body.start (code : Body Label Insn Kind) (state : State) : Config Label Insn State Exc Result :=
  .running [] code.items state

def Item.labels : Item Label Insn → List Label
  | .label name => [name]
  | .insn _ _ => []

def labels (items : List (Item Label Insn)) : List Label := items.flatMap Item.labels

@[simp] theorem labels_nil : labels ([] : List (Item Label Insn)) = [] := rfl

@[simp] theorem labels_append (first second : List (Item Label Insn)) :
    labels (first ++ second) = labels first ++ labels second :=
  List.flatMap_append

@[simp] theorem labels_label (label : Label) (rest : List (Item Label Insn)) :
    labels (.label label :: rest) = label :: labels rest := by
  simp [labels,Item.labels]

@[simp] theorem labels_insn (added : List Insn) (insn : Insn) (rest : List (Item Label Insn)) :
    labels (.insn added insn :: rest) = labels rest := by
  simp [labels,Item.labels]

namespace Machine
variable (M : Machine Label Insn Kind Event State Exc Result)

/-- The events of instructions that go on without a change of the state. -/
def Emits (state : State) : List Insn → List Event → Prop
  | [], events => events = []
  | insn :: rest, events =>
    ∃ first later, M.effect insn state first (.next state) ∧ Emits state rest later ∧ events = first ++ later

/-- The instruction only emits events. -/
def Silent (insn : Insn) : Prop := ∀ state events outcome, M.effect insn state events outcome → outcome = .next state

variable {M}

@[simp] theorem emits_nil (state : State) (events : List Event) : M.Emits state [] events ↔ events = [] := Iff.rfl

theorem emits_none (state : State) : M.Emits state [] [] := rfl

theorem emits_snoc {state : State} {added : List Insn} {insn : Insn} {before events : List Event}
    (emits : M.Emits state added before) (effect : M.effect insn state events (.next state)) :
    M.Emits state (added ++ [insn]) (before ++ events) := by
  induction added generalizing before with
  | nil =>
    rw [emits_nil] at emits
    subst emits
    exact ⟨events,[],effect,rfl,by simp⟩
  | cons first rest ih =>
    obtain ⟨head,later,emitted,remaining,rfl⟩ := emits
    exact ⟨head,later ++ events,emitted,ih remaining,by simp⟩

end Machine

section Steps
variable [DecidableEq Label]

/-- The items up to a label, and those from it on. -/
def seek (label : Label) : List (Item Label Insn) → Option (List (Item Label Insn) × List (Item Label Insn))
  | [] => none
  | item :: rest =>
    if label ∈ item.labels then some ([],item :: rest)
    else (seek label rest).map fun found => (item :: found.1,found.2)

/-- The handler's range has begun and not yet ended. -/
def Handler.covers (handler : Handler Label Kind) (before rest : List (Item Label Insn)) : Bool :=
  handler.start ∈ labels before ∧ handler.stop ∈ labels rest

namespace Machine
variable (M : Machine Label Insn Kind Event State Exc Result)

/-- Where an exception is caught that is raised between the items. -/
def handlerOf (handlers : List (Handler Label Kind)) (before rest : List (Item Label Insn)) (exc : Exc) :
    Option Label :=
  (handlers.find? fun handler => handler.covers before rest && handler.kind.all (M.catches · exc)).map (·.target)

/-- One step of a run of the body. -/
inductive Step (code : Body Label Insn Kind) :
    Config Label Insn State Exc Result → List Event → Config Label Insn State Exc Result → Prop
  | label {before rest state} (label : Label) :
    Step code (.running before (.label label :: rest) state) []
      (.running (before ++ [.label label]) rest state)
  | next {before rest state added insn first events later} (emits : M.Emits state added first)
    (effect : M.effect insn state events (.next later)) :
    Step code (.running before (.insn added insn :: rest) state) (first ++ events)
      (.running (before ++ [.insn added insn]) rest later)
  | jump {before rest state added insn first events label later before' rest'} (emits : M.Emits state added first)
    (effect : M.effect insn state events (.jump label later)) (target : seek label code.items = some (before',rest')) :
    Step code (.running before (.insn added insn :: rest) state) (first ++ events) (.running before' rest' later)
  | finish {before rest state added insn first events result} (emits : M.Emits state added first)
    (effect : M.effect insn state events (.finish result)) :
    Step code (.running before (.insn added insn :: rest) state) (first ++ events) (.ended (.returned result))
  | caught {before rest state added insn first events exc label before' rest'} (emits : M.Emits state added first)
    (effect : M.effect insn state events (.raise exc))
    (handler : M.handlerOf code.handlers before (.insn added insn :: rest) exc = some label)
    (target : seek label code.items = some (before',rest')) :
    Step code (.running before (.insn added insn :: rest) state) (first ++ events)
      (.running before' rest' (M.caught state exc))
  | raised {before rest state added insn first events exc} (emits : M.Emits state added first)
    (effect : M.effect insn state events (.raise exc))
    (uncaught : M.handlerOf code.handlers before (.insn added insn :: rest) exc = none) :
    Step code (.running before (.insn added insn :: rest) state) (first ++ events) (.ended (.raised exc))

/-- A run of the body, with its events. -/
inductive Steps (code : Body Label Insn Kind) (config : Config Label Insn State Exc Result) :
    List Event → Config Label Insn State Exc Result → Prop
  | refl : Steps code config [] config
  | step {before middle events last} (steps : Steps code config before middle)
    (step : M.Step code middle events last) : Steps code config (before ++ events) last

/-- No run reaches the end of the items. -/
def Closed (code : Body Label Insn Kind) : Prop :=
  ∀ state events before last, ¬M.Steps code (code.start state) events (.running before [] last)

variable {M} {code : Body Label Insn Kind}

theorem Steps.single {first last : Config Label Insn State Exc Result} {events : List Event}
    (step : M.Step code first events last) : M.Steps code first events last := by
  have one : M.Steps code first ([] ++ events) last := .step .refl step
  rwa [List.nil_append] at one

theorem Steps.trans {first middle last : Config Label Insn State Exc Result} {before after : List Event}
    (early : M.Steps code first before middle) (late : M.Steps code middle after last) :
    M.Steps code first (before ++ after) last := by
  induction late with
  | refl => rwa [List.append_nil]
  | step _ step ih =>
    rw [← List.append_assoc]
    exact .step ih step

theorem Steps.head {first middle last : Config Label Insn State Exc Result} {events later : List Event}
    (step : M.Step code first events middle) (steps : M.Steps code middle later last) :
    M.Steps code first (events ++ later) last :=
  (Steps.single step).trans steps

/-- A property that no step loses holds wherever a run gets. -/
theorem Steps.invariant (Inv : List Event → Config Label Insn State Exc Result → Prop)
    {first last : Config Label Insn State Exc Result} {events : List Event} (start : Inv [] first)
    (preserved : ∀ before middle events last, M.Steps code first before middle → Inv before middle →
      M.Step code middle events last → Inv (before ++ events) last)
    (steps : M.Steps code first events last) : Inv events last := by
  induction steps with
  | refl => exact start
  | step steps step ih => exact preserved _ _ _ _ steps ih step

end Machine

/-! ## Places -/

theorem seek_none {label : Label} {items : List (Item Label Insn)} : seek label items = none ↔ label ∉ labels items := by
  induction items with
  | nil => simp [seek]
  | cons item rest ih =>
    rw [seek,labels,List.flatMap_cons,List.mem_append,← labels]
    by_cases here : label ∈ item.labels
    · simp [here]
    · simp [here,ih]

theorem seek_append_left {label : Label} {items before rest : List (Item Label Insn)}
    (found : seek label items = some (before,rest)) (more : List (Item Label Insn)) :
    seek label (items ++ more) = some (before,rest ++ more) := by
  induction items generalizing before with
  | nil => simp [seek] at found
  | cons item items ih =>
    rw [seek] at found
    rw [List.cons_append,seek]
    by_cases here : label ∈ item.labels
    · rw [if_pos here,Option.some.injEq,Prod.mk.injEq] at found
      obtain ⟨rfl,rfl⟩ := found
      rw [if_pos here,List.cons_append]
    · rw [if_neg here] at found ⊢
      obtain ⟨⟨before',rest'⟩,later,same⟩ := Option.map_eq_some_iff.mp found
      cases same
      rw [ih later,Option.map_some]

theorem seek_append_right {label : Label} {items : List (Item Label Insn)} (absent : label ∉ labels items)
    (more : List (Item Label Insn)) :
    seek label (items ++ more) = (seek label more).map fun found => (items ++ found.1,found.2) := by
  induction items with
  | nil => simp
  | cons item items ih =>
    rw [labels,List.flatMap_cons,List.mem_append,← labels,not_or] at absent
    rw [List.cons_append,seek,if_neg absent.1,ih absent.2,Option.map_map]
    rfl

theorem seek_split {label : Label} {items before rest : List (Item Label Insn)}
    (found : seek label items = some (before,rest)) : before ++ rest = items := by
  induction items generalizing before with
  | nil => simp [seek] at found
  | cons item items ih =>
    rw [seek] at found
    by_cases here : label ∈ item.labels
    · rw [if_pos here,Option.some.injEq,Prod.mk.injEq] at found
      obtain ⟨rfl,rfl⟩ := found
      rfl
    · rw [if_neg here] at found
      obtain ⟨⟨before',rest'⟩,later,same⟩ := Option.map_eq_some_iff.mp found
      cases same
      rw [List.cons_append,ih later]

/-- A run stays within the body. -/
def Config.Within (items : List (Item Label Insn)) : Config Label Insn State Exc Result → Prop
  | .running before rest _ => before ++ rest = items
  | .ended _ => True

theorem Machine.Steps.within {M : Machine Label Insn Kind Event State Exc Result} {code : Body Label Insn Kind}
    {state : State} {events : List Event} {last : Config Label Insn State Exc Result}
    (steps : M.Steps code (code.start state) events last) : last.Within code.items := by
  refine Machine.Steps.invariant (fun _ config => config.Within code.items) (by simp [Body.start,Config.Within]) ?_ steps
  intro before middle events last _ inside step
  cases step with
  | label name => simpa [Config.Within] using inside
  | next emits effect => simpa [Config.Within] using inside
  | jump emits effect target => exact seek_split target
  | finish emits effect => trivial
  | caught emits effect handler target => exact seek_split target
  | raised emits effect uncaught => trivial

/-- No run reaches the end of a body whose last instruction does not go on. -/
theorem Machine.closed_of_last {M : Machine Label Insn Kind Event State Exc Result} {code : Body Label Insn Kind}
    {front : List (Item Label Insn)} {added : List Insn} {op : Insn} (last : code.items = front ++ [.insn added op])
    (never : ∀ state events later, ¬M.effect op state events (.next later)) : M.Closed code := by
  intro state events before final steps
  have onward : ∀ {rest : List (Item Label Insn)} {item before'}, before' ++ item :: rest = code.items → rest = [] →
      item = .insn added op := by
    rintro rest item before' whole rfl
    rw [last] at whole
    exact (List.append_inj' whole rfl).2 |> List.singleton_inj.mp
  have found : ∀ {label : Label} {before' rest'}, seek label code.items = some (before',rest') → rest' ≠ [] := by
    intro label before' rest'
    generalize code.items = items
    intro found
    induction items generalizing before' with
    | nil => simp [seek] at found
    | cons item items ih =>
      rw [seek] at found
      by_cases here : label ∈ item.labels
      · rw [if_pos here,Option.some.injEq,Prod.mk.injEq] at found
        simp [← found.2]
      · rw [if_neg here] at found
        obtain ⟨⟨first,second⟩,later,same⟩ := Option.map_eq_some_iff.mp found
        cases same
        exact ih later
  have kept := Machine.Steps.invariant (fun _ config => ∀ before' last', config ≠ .running before' [] last') ?_ ?_ steps
  · exact kept _ _ rfl
  · intro before' last' same
    rw [Body.start,last] at same
    simp at same
  · intro before' middle more config run _ step before'' last' same
    subst same
    have inside := run.within
    cases step with
    | label name => cases onward inside rfl
    | next emits effect =>
      cases onward inside rfl
      exact never _ _ _ effect
    | jump emits effect target => exact found target rfl
    | caught emits effect handler target => exact found target rfl

end Steps

/-! ## Programs of methods that call each other

An instruction can run the body of another method, and goes on with what that
returns or raises what it raises. A run with calls nested up to some depth is one
of a machine that takes the runs of the next lower depth as what the calls do. -/

section Programs
variable [DecidableEq Label] {Name : Type u}

/-- The instructions other than calls, which methods are called in which states, and the bodies. -/
structure Program (Label Insn Kind Event State Exc Result Name : Type u) where
  machine : Machine Label Insn Kind Event State Exc Result
  calls : Insn → State → Name → State → Prop
  resume : State → Result → State
  code : Name → Body Label Insn Kind

namespace Program
variable (P : Program Label Insn Kind Event State Exc Result Name)

/-- What the end of the called method is to the caller. -/
def after (state : State) : Ending Exc Result → Outcome Label State Exc Result
  | .returned result => .next (P.resume state result)
  | .raised exc => .raise exc

/-- The machine whose calls are nested at most so deep. -/
def machineAt : ℕ → Machine Label Insn Kind Event State Exc Result
  | 0 => P.machine
  | depth + 1 =>
    { P.machine with
      effect := fun op state events outcome => P.machine.effect op state events outcome ∨
        ∃ name entry ending, P.calls op state name entry ∧
          (machineAt depth).Steps (P.code name) ((P.code name).start entry) events (.ended ending) ∧
          outcome = P.after state ending }

/-- A run of a method from its call to its end. -/
def Invokes (depth : ℕ) (name : Name) (entry : State) (events : List Event) (ending : Ending Exc Result) : Prop :=
  (P.machineAt depth).Steps (P.code name) ((P.code name).start entry) events (.ended ending)

theorem effect_succ (depth : ℕ) (op : Insn) (state : State) (events : List Event)
    (outcome : Outcome Label State Exc Result) :
    (P.machineAt (depth + 1)).effect op state events outcome ↔ P.machine.effect op state events outcome ∨
      ∃ name entry ending, P.calls op state name entry ∧ P.Invokes depth name entry events ending ∧
        outcome = P.after state ending := Iff.rfl

/-- Instructions that call nothing do the same at every depth. -/
theorem effect_basic {op : Insn} (basic : ∀ state name entry, ¬P.calls op state name entry) (depth : ℕ) (state : State)
    (events : List Event) (outcome : Outcome Label State Exc Result) :
    (P.machineAt depth).effect op state events outcome ↔ P.machine.effect op state events outcome := by
  cases depth with
  | zero => rfl
  | succ depth =>
    rw [effect_succ]
    constructor
    · rintro (same | ⟨name,entry,ending,call,-⟩)
      · exact same
      · exact absurd call (basic state name entry)
    · exact .inl

theorem caught_machineAt (depth : ℕ) : (P.machineAt depth).caught = P.machine.caught := by
  cases depth <;> rfl

end Program

end Programs

end Vexjine.InstructionLists
