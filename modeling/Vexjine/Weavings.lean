import Vexjine.InstructionLists

/-!
# Added instructions

Instructions can be added in front of others, at the start of a body, and in a
handler put around it that raises the exception again. As long as the added ones
only emit events and go on, the runs of the body with them are those of the body
itself, with their events in between.
-/

namespace Vexjine.InstructionLists

universe u
variable {Label Insn Kind Event State Exc Result : Type u}

/-- A handler around the body: it runs instructions of its own and raises the exception again. -/
structure Guard (Label Insn : Type u) where
  start : Label
  stop : Label
  handling : List Insn
  rethrow : Insn

/-- What is put around a body: instructions in front of it, and perhaps a guard. -/
structure Frame (Label Insn : Type u) where
  front : List Insn
  guard : Option (Guard Label Insn)

/-- Instructions with none added. -/
def plain (insns : List Insn) : List (Item Label Insn) := insns.map (.insn [])

def Item.woven : Item Label Insn → List (Item Label Insn)
  | .label name => [.label name]
  | .insn added op => plain (added ++ [op])

/-- The items with the added instructions as instructions of their own. -/
def woven (items : List (Item Label Insn)) : List (Item Label Insn) := items.flatMap Item.woven

/-- The items without the added instructions. -/
def Item.bare : Item Label Insn → Item Label Insn
  | .label name => .label name
  | .insn _ op => .insn [] op

namespace Frame

def head (frame : Frame Label Insn) : List (Item Label Insn) :=
  (frame.guard.map fun guard => .label guard.start).toList ++ plain frame.front

def tail (frame : Frame Label Insn) : List (Item Label Insn) :=
  match frame.guard with
  | none => []
  | some guard => .label guard.stop :: plain (guard.handling ++ [guard.rethrow])

/-- The body with the added instructions, in its frame. -/
def weave (frame : Frame Label Insn) (code : Body Label Insn Kind) : Body Label Insn Kind where
  items := frame.head ++ woven code.items ++ frame.tail
  handlers := code.handlers ++ (frame.guard.map fun guard => ⟨guard.start,guard.stop,guard.stop,none⟩).toList

end Frame

@[simp] theorem plain_nil : plain ([] : List Insn) = ([] : List (Item Label Insn)) := rfl

@[simp] theorem plain_cons (insn : Insn) (rest : List Insn) :
    (plain (insn :: rest) : List (Item Label Insn)) = .insn [] insn :: plain rest := rfl

@[simp] theorem plain_append (first second : List Insn) :
    (plain (first ++ second) : List (Item Label Insn)) = plain first ++ plain second := List.map_append

@[simp] theorem labels_plain (insns : List Insn) : labels (plain insns : List (Item Label Insn)) = [] := by
  induction insns with
  | nil => rfl
  | cons insn rest ih => simp [ih]

@[simp] theorem woven_nil : woven ([] : List (Item Label Insn)) = [] := rfl

@[simp] theorem woven_label (label : Label) (rest : List (Item Label Insn)) :
    woven (.label label :: rest) = .label label :: woven rest := rfl

@[simp] theorem woven_insn (added : List Insn) (insn : Insn) (rest : List (Item Label Insn)) :
    woven (.insn added insn :: rest) = plain added ++ .insn [] insn :: woven rest := by
  simp [woven,Item.woven]

@[simp] theorem woven_append (first second : List (Item Label Insn)) : woven (first ++ second) = woven first ++ woven second :=
  List.flatMap_append

@[simp] theorem woven_plain (insns : List Insn) : woven (plain insns : List (Item Label Insn)) = plain insns := by
  induction insns with
  | nil => rfl
  | cons insn rest ih => simp [ih]

@[simp] theorem labels_woven (items : List (Item Label Insn)) : labels (woven items) = labels items := by
  induction items with
  | nil => rfl
  | cons item rest ih =>
    cases item with
    | label name => simp [ih]
    | insn added insn => simp [ih]

section Weaving
variable [DecidableEq Label]

/-- The label is none of the guard. -/
def Guard.Avoids (guard : Guard Label Insn) (label : Label) : Prop := label ≠ guard.start ∧ label ≠ guard.stop

/-- The labels of the guard are new to the body, and its instructions raise the caught exception again. -/
structure Guard.Fits (guard : Guard Label Insn) (M : Machine Label Insn Kind Event State Exc Result)
    (code : Body Label Insn Kind) : Prop where
  apart : guard.start ≠ guard.stop
  items : ∀ label ∈ labels code.items, guard.Avoids label
  handlers : ∀ handler ∈ code.handlers,
    guard.Avoids handler.start ∧ guard.Avoids handler.stop ∧ guard.Avoids handler.target
  jumps : ∀ added insn, Item.insn added insn ∈ code.items →
    ∀ state events label later, M.effect insn state events (.jump label later) → guard.Avoids label
  handling : ∀ insn ∈ guard.handling, M.Silent insn
  rethrow : ∀ state exc events outcome,
    M.effect guard.rethrow (M.caught state exc) events outcome ↔ events = [] ∧ outcome = .raise exc

/-- The added instructions only emit events, and the guard fits the body. -/
structure Frame.Fits (frame : Frame Label Insn) (M : Machine Label Insn Kind Event State Exc Result)
    (code : Body Label Insn Kind) : Prop where
  front : ∀ insn ∈ frame.front, M.Silent insn
  added : ∀ added insn, Item.insn added insn ∈ code.items → ∀ other ∈ added, M.Silent other
  guard : ∀ guard ∈ frame.guard, guard.Fits M code

variable {M : Machine Label Insn Kind Event State Exc Result} {frame : Frame Label Insn} {code : Body Label Insn Kind}

theorem seek_plain (label : Label) (insns : List Insn) (items : List (Item Label Insn)) :
    seek label (plain insns ++ items) = (seek label items).map fun found => (plain insns ++ found.1,found.2) :=
  seek_append_right (by simp) items

theorem seek_woven (label : Label) (items : List (Item Label Insn)) :
    seek label (woven items) = (seek label items).map fun found => (woven found.1,woven found.2) := by
  induction items with
  | nil => rfl
  | cons item rest ih =>
    cases item with
    | label name =>
      rw [woven_label,seek,seek]
      by_cases here : label ∈ (Item.label name : Item Label Insn).labels
      · rw [if_pos here,if_pos here]
        simp
      · rw [if_neg here,if_neg here,ih,Option.map_map,Option.map_map]
        rfl
    | insn added insn =>
      rw [woven_insn,seek_plain,seek,seek,if_neg (by simp [Item.labels]),if_neg (by simp [Item.labels]),ih]
      simp only [Option.map_map]
      congr 1
      funext found
      simp

/-- Labels of the body stay where they are. -/
theorem seek_weave {label : Label} (avoids : ∀ guard ∈ frame.guard, guard.Avoids label) :
    seek label (frame.weave code).items =
      (seek label code.items).map fun found => (frame.head ++ woven found.1,woven found.2 ++ frame.tail) := by
  have ahead : label ∉ labels frame.head := by
    unfold Frame.head
    cases framed : frame.guard with
    | none => simp
    | some guard => simpa using (avoids guard framed).1
  have behind : seek label frame.tail = none := by
    rw [seek_none]
    unfold Frame.tail
    cases framed : frame.guard with
    | none => simp
    | some guard => simpa using (avoids guard framed).2
  rw [Frame.weave,List.append_assoc,seek_append_right ahead]
  cases found : seek label code.items with
  | none =>
    have absent : label ∉ labels (woven code.items) := by
      rw [labels_woven]
      exact seek_none.mp found
    rw [seek_append_right absent,behind]
    rfl
  | some split =>
    have inside : seek label (woven code.items) = some (woven split.1,woven split.2) := by
      rw [seek_woven,found]
      rfl
    rw [seek_append_left inside]
    rfl

theorem seek_guard {guard : Guard Label Insn} (framed : frame.guard = some guard) (fits : guard.Fits M code) :
    seek guard.stop (frame.weave code).items = some (frame.head ++ woven code.items,frame.tail) := by
  have ahead : guard.stop ∉ labels (frame.head ++ woven code.items) := by
    simp only [Frame.head,framed,labels_append,labels_woven]
    intro member
    rcases List.mem_append.mp member with front | body
    · simp [fits.apart.symm] at front
    · exact (fits.items _ body).2 rfl
  have here : seek guard.stop frame.tail = some ([],frame.tail) := by
    simp [Frame.tail,framed,seek,Item.labels]
  rw [Frame.weave,seek_append_right ahead,here]
  simp

/-- Outside its guard, the body is covered as before. -/
theorem covers_weave (fits : ∀ guard ∈ frame.guard, guard.Fits M code) {handler : Handler Label Kind}
    (listed : handler ∈ code.handlers) (before rest : List (Item Label Insn)) (done : List Insn) (added : List Insn)
    (insn : Insn) :
    handler.covers (frame.head ++ woven before ++ plain done) (.insn [] insn :: (woven rest ++ frame.tail)) =
      handler.covers before (.insn added insn :: rest) := by
  have ahead : handler.start ∈ labels (frame.head ++ woven before ++ plain done) ↔ handler.start ∈ labels before := by
    cases framed : frame.guard with
    | none => simp [Frame.head,framed]
    | some guard => simp [Frame.head,framed,((fits guard framed).handlers handler listed).1.1]
  have behind : handler.stop ∈ labels (woven rest ++ frame.tail) ↔ handler.stop ∈ labels rest := by
    cases framed : frame.guard with
    | none => simp [Frame.tail,framed]
    | some guard => simp [Frame.tail,framed,((fits guard framed).handlers handler listed).2.1.2]
  simp only [Handler.covers,ahead,labels_insn,behind]

/-- What the body does not catch, its guard does. -/
theorem handlerOf_weave (fits : ∀ guard ∈ frame.guard, guard.Fits M code) (before rest : List (Item Label Insn))
    (done added : List Insn) (insn : Insn) (exc : Exc) :
    M.handlerOf (frame.weave code).handlers (frame.head ++ woven before ++ plain done)
        (.insn [] insn :: (woven rest ++ frame.tail)) exc =
      (M.handlerOf code.handlers before (.insn added insn :: rest) exc).or (frame.guard.map (·.stop)) := by
  have own : code.handlers.find? (fun handler =>
        handler.covers (frame.head ++ woven before ++ plain done) (.insn [] insn :: (woven rest ++ frame.tail)) &&
          handler.kind.all (M.catches · exc)) =
      code.handlers.find? fun handler =>
        handler.covers before (.insn added insn :: rest) && handler.kind.all (M.catches · exc) := by
    apply List.find?_congr
    intro handler listed
    rw [covers_weave fits listed]
  unfold Machine.handlerOf
  rw [Frame.weave,List.find?_append,own]
  cases code.handlers.find? _ with
  | some handler => rfl
  | none =>
    cases framed : frame.guard with
    | none => rfl
    | some guard => simp [Frame.head,Frame.tail,framed,Handler.covers]

/-! ## Runs with the added instructions -/

/-- A place of the woven body and one of the body, with the events emitted ahead of the latter. -/
inductive Matches (M : Machine Label Insn Kind Event State Exc Result) (frame : Frame Label Insn)
    (code : Body Label Insn Kind) :
    Config Label Insn State Exc Result → List Event → Config Label Insn State Exc Result → Prop
  | label {before rest state} (name : Label) :
    Matches M frame code
      (.running (frame.head ++ woven before) (.label name :: (woven rest ++ frame.tail)) state) []
      (.running before (.label name :: rest) state)
  | insn {before rest state done todo op pending} (emits : M.Emits state done pending) :
    Matches M frame code
      (.running (frame.head ++ woven before ++ plain done)
        (plain todo ++ .insn [] op :: (woven rest ++ frame.tail)) state) pending
      (.running before (.insn (done ++ todo) op :: rest) state)
  | off {before state} :
    Matches M frame code (.running (frame.head ++ woven before) frame.tail state) [] (.running before [] state)
  | guarded {guard state exc} (framed : frame.guard = some guard) :
    Matches M frame code (.running (frame.head ++ woven code.items) frame.tail (M.caught state exc)) []
      (.ended (.raised exc))
  | handling {guard state exc done todo pending before} (framed : frame.guard = some guard)
    (split : guard.handling = done ++ todo) (emits : M.Emits (M.caught state exc) done pending) :
    Matches M frame code
      (.running before (plain todo ++ [.insn [] guard.rethrow]) (M.caught state exc)) pending
      (.ended (.raised exc))
  | returned (result : Result) : Matches M frame code (.ended (.returned result)) [] (.ended (.returned result))
  | raised {exc} (unguarded : frame.guard = none) :
    Matches M frame code (.ended (.raised exc)) [] (.ended (.raised exc))
  | rethrown {guard state exc pending} (framed : frame.guard = some guard)
    (emits : M.Emits (M.caught state exc) guard.handling pending) :
    Matches M frame code (.ended (.raised exc)) pending (.ended (.raised exc))

variable (M frame code) in
omit [DecidableEq Label] in
theorem matches_boundary (before rest : List (Item Label Insn)) (state : State) :
    Matches M frame code (.running (frame.head ++ woven before) (woven rest ++ frame.tail) state) []
      (.running before rest state) := by
  cases rest with
  | nil => exact .off
  | cons item rest =>
    cases item with
    | label name => exact .label name
    | insn added op =>
      have first : Matches M frame code
          (.running (frame.head ++ woven before ++ plain []) (plain added ++ .insn [] op :: (woven rest ++ frame.tail)) state)
          [] (.running before (.insn ([] ++ added) op :: rest) state) := .insn rfl
      simpa using first

/-- An instruction that only emits events goes on behind them. -/
theorem Machine.Step.silent {before rest : List (Item Label Insn)} {op : Insn} {state : State} {events : List Event}
    {last : Config Label Insn State Exc Result}
    (step : M.Step code (.running before (.insn [] op :: rest) state) events last) (silent : M.Silent op) :
    M.effect op state events (.next state) ∧ last = .running (before ++ [.insn [] op]) rest state := by
  cases step with
  | next emits effect =>
    cases silent _ _ _ effect
    cases emits
    exact ⟨effect,rfl⟩
  | jump emits effect target => cases silent _ _ _ effect
  | finish emits effect => cases silent _ _ _ effect
  | caught emits effect handler target => cases silent _ _ _ effect
  | raised emits effect uncaught => cases silent _ _ _ effect

/-- Behind the last label nothing is covered. -/
theorem handlerOf_last (handlers : List (Handler Label Kind)) (before : List (Item Label Insn))
    {rest : List (Item Label Insn)} (last : labels rest = []) (exc : Exc) :
    M.handlerOf handlers before rest exc = none := by
  unfold Machine.handlerOf
  rw [Option.map_eq_none_iff,List.find?_eq_none]
  intro handler _
  simp [Handler.covers,last]

/-- An instruction of the body does in the woven body what it does in the body. -/
theorem insn_step (fits : frame.Fits M code) {state : State} {before rest : List (Item Label Insn)}
    {done : List Insn} {op : Insn} {pending events : List Event} {last : Config Label Insn State Exc Result}
    (member : Item.insn done op ∈ code.items) (emits : M.Emits state done pending)
    (step : M.Step (frame.weave code)
      (.running (frame.head ++ woven before ++ plain done) (.insn [] op :: (woven rest ++ frame.tail)) state)
      events last) :
    ∃ place, M.Step code (.running before (.insn done op :: rest) state) (pending ++ events) place ∧
      Matches M frame code last [] place := by
  have within : ∀ guard ∈ frame.guard, ∀ label ∈ labels code.items, guard.Avoids label :=
    fun guard framed => (fits.guard guard framed).items
  cases step with
  | next none effect =>
    cases none
    refine ⟨_,.next emits effect,?_⟩
    have boundary := matches_boundary M frame code (before ++ [.insn done op]) rest
    simpa using boundary _
  | jump none effect target =>
    cases none
    have avoids := fun guard framed => (fits.guard guard framed).jumps _ _ member _ _ _ _ effect
    rw [seek_weave avoids] at target
    obtain ⟨⟨before',rest'⟩,found,same⟩ := Option.map_eq_some_iff.mp target
    cases same
    exact ⟨_,.jump emits effect found,matches_boundary M frame code before' rest' _⟩
  | finish none effect =>
    cases none
    exact ⟨_,.finish emits effect,.returned _⟩
  | caught none effect handler target =>
    cases none
    rw [handlerOf_weave fits.guard before rest done done] at handler
    cases own : M.handlerOf code.handlers before (.insn done op :: rest) _ with
    | some label =>
      rw [own,Option.some_or,Option.some.injEq] at handler
      subst handler
      have avoids : ∀ guard ∈ frame.guard, guard.Avoids label := by
        intro guard framed
        obtain ⟨handler,found,rfl⟩ := Option.map_eq_some_iff.mp own
        exact ((fits.guard guard framed).handlers handler (List.mem_of_find?_eq_some found)).2.2
      rw [seek_weave avoids] at target
      obtain ⟨⟨before',rest'⟩,found,same⟩ := Option.map_eq_some_iff.mp target
      cases same
      exact ⟨_,.caught emits effect own found,matches_boundary M frame code before' rest' _⟩
    | none =>
      rw [own,Option.none_or] at handler
      obtain ⟨guard,framed,rfl⟩ := Option.map_eq_some_iff.mp handler
      rw [seek_guard framed (fits.guard guard framed)] at target
      cases target
      exact ⟨_,.raised emits effect own,.guarded framed⟩
  | raised none effect uncaught =>
    cases none
    rw [handlerOf_weave fits.guard before rest done done,Option.or_eq_none_iff,Option.map_eq_none_iff] at uncaught
    exact ⟨_,.raised emits effect uncaught.1,.raised uncaught.2⟩

/-- A step of the woven body is one of the body, or one of an added instruction on the way to the next. -/
theorem matches_step (fits : frame.Fits M code) {place first last : Config Label Insn State Exc Result}
    {pending events : List Event} (inside : place.Within code.items)
    (onward : ∀ before state, place ≠ .running before [] state) (same : Matches M frame code first pending place)
    (step : M.Step (frame.weave code) first events last) :
    ∃ emitted place' pending', M.Steps code place emitted place' ∧ Matches M frame code last pending' place' ∧
      pending ++ events = emitted ++ pending' := by
  cases same with
  | @label before rest state name =>
    cases step
    refine ⟨[],_,[],.single (.label name),?_,rfl⟩
    have boundary := matches_boundary M frame code (before ++ [.label name]) rest state
    simpa using boundary
  | @insn before rest state done todo op pending emits =>
    cases todo with
    | nil =>
      rw [List.append_nil] at inside ⊢
      have member : Item.insn done op ∈ code.items := by
        rw [← (inside : before ++ _ = code.items)]
        simp
      obtain ⟨place,stepped,reached⟩ := insn_step fits member emits step
      exact ⟨_,place,[],.single stepped,reached,by simp⟩
    | cons other todo =>
      have member : Item.insn (done ++ other :: todo) op ∈ code.items := by
        rw [← (inside : before ++ _ = code.items)]
        simp
      obtain ⟨effect,rfl⟩ := step.silent (fits.added _ _ member other (by simp))
      refine ⟨[],_,pending ++ events,.refl,?_,rfl⟩
      have later : Matches M frame code (.running (frame.head ++ woven before ++ plain (done ++ [other]))
          (plain todo ++ .insn [] op :: (woven rest ++ frame.tail)) state) (pending ++ events)
          (.running before (.insn (done ++ [other] ++ todo) op :: rest) state) := .insn (M.emits_snoc emits effect)
      simpa [plain] using later
  | off => exact absurd rfl (onward _ _)
  | @guarded guard state exc framed =>
    have opened : frame.tail = .label guard.stop :: (plain guard.handling ++ [.insn [] guard.rethrow]) := by
      simp [Frame.tail,framed]
    rw [opened] at step
    cases step
    exact ⟨[],_,[],.refl,.handling framed (List.nil_append _).symm rfl,rfl⟩
  | @handling guard state exc done todo pending before framed split emits =>
    have guard_fits := fits.guard guard framed
    cases todo with
    | nil =>
      rw [List.append_nil] at split
      subst split
      refine ⟨[],_,pending ++ events,.refl,?_,rfl⟩
      cases step with
      | raised none effect uncaught =>
        cases none
        obtain ⟨rfl,same⟩ := (guard_fits.rethrow _ _ _ _).mp effect
        cases same
        simpa using Matches.rethrown framed emits
      | next none effect => cases ((guard_fits.rethrow _ _ _ _).mp effect).2
      | jump none effect target => cases ((guard_fits.rethrow _ _ _ _).mp effect).2
      | finish none effect => cases ((guard_fits.rethrow _ _ _ _).mp effect).2
      | caught none effect handler target =>
        rw [handlerOf_last _ _ (by simp)] at handler
        cases handler
    | cons other todo =>
      obtain ⟨effect,rfl⟩ := step.silent (guard_fits.handling other (by simp [split]))
      exact ⟨[],_,_,.refl,.handling framed (by simp [split]) (M.emits_snoc emits effect),rfl⟩
  | returned result => cases step
  | raised unguarded => cases step
  | rethrown framed emits => cases step

/-- How far a run of the woven body is: in front of it, or at a place of a run of the body. -/
inductive Simulates (M : Machine Label Insn Kind Event State Exc Result) (frame : Frame Label Insn)
    (code : Body Label Insn Kind) (state : State) : List Event → Config Label Insn State Exc Result → Prop
  | opening {guard} (framed : frame.guard = some guard) :
    Simulates M frame code state [] ((frame.weave code).start state)
  | front {done todo before events} (split : frame.front = done ++ todo) (ahead : before ++ plain todo = frame.head)
    (emits : M.Emits state done events) :
    Simulates M frame code state events (.running before (plain todo ++ (woven code.items ++ frame.tail)) state)
  | body {config place first emitted pending} (front : M.Emits state frame.front first)
    (steps : M.Steps code (code.start state) emitted place) (same : Matches M frame code config pending place) :
    Simulates M frame code state (first ++ emitted ++ pending) config

theorem simulates_start (frame : Frame Label Insn) (code : Body Label Insn Kind) (state : State) :
    Simulates M frame code state [] ((frame.weave code).start state) := by
  cases framed : frame.guard with
  | some guard => exact .opening framed
  | none =>
    have first : Simulates M frame code state []
        (.running [] (plain frame.front ++ (woven code.items ++ frame.tail)) state) :=
      .front (List.nil_append _).symm (by simp [Frame.head,framed]) rfl
    simpa [Body.start,Frame.weave,Frame.head,framed] using first

theorem simulates_step (fits : frame.Fits M code) {state : State} {first last : Config Label Insn State Exc Result}
    {before events : List Event} (closed : M.Closed code) (ahead : Simulates M frame code state before first)
    (step : M.Step (frame.weave code) first events last) : Simulates M frame code state (before ++ events) last := by
  have body : ∀ {config place first emitted pending}, M.Emits state frame.front first →
      M.Steps code (code.start state) emitted place → Matches M frame code config pending place →
      M.Step (frame.weave code) config events last →
      Simulates M frame code state (first ++ emitted ++ pending ++ events) last := by
    intro config place first emitted pending front steps same step
    have onward : ∀ before state, place ≠ .running before [] state := by
      rintro before state' rfl
      exact closed _ _ _ _ steps
    obtain ⟨later,place',pending',further,reached,total⟩ := matches_step fits steps.within onward same step
    have whole := Simulates.body front (steps.trans further) reached
    have events_eq : first ++ emitted ++ pending ++ events = first ++ (emitted ++ later) ++ pending' := by
      simp only [List.append_assoc] at total ⊢
      rw [total]
    rwa [events_eq]
  cases ahead with
  | @opening guard framed =>
    have opened : (frame.weave code).items =
        .label guard.start :: (plain frame.front ++ (woven code.items ++ frame.tail)) := by
      simp [Frame.weave,Frame.head,framed]
    rw [Body.start,opened] at step
    cases step
    exact .front (List.nil_append _).symm (by simp [Frame.head,framed]) rfl
  | @front done todo before _ split ahead emits =>
    cases todo with
    | nil =>
      rw [List.append_nil] at split
      rw [plain_nil,List.append_nil] at ahead
      subst split ahead
      have boundary := matches_boundary M frame code [] code.items state
      rw [woven_nil,List.append_nil] at boundary
      simpa using body emits .refl boundary step
    | cons other todo =>
      obtain ⟨effect,rfl⟩ := step.silent (fits.front other (by simp [split]))
      exact .front (by simp [split]) (by simpa using ahead) (M.emits_snoc emits effect)
  | body front steps same => exact body front steps same step

/-- What the guard emits when a run of the body ends, depending on how it does. -/
def Frame.Closes (frame : Frame Label Insn) (M : Machine Label Insn Kind Event State Exc Result) :
    Ending Exc Result → List Event → Prop
  | .returned _, events => events = []
  | .raised exc, events =>
    match frame.guard with
    | none => events = []
    | some guard => ∃ state, M.Emits (M.caught state exc) guard.handling events

/-- The runs of the woven body are those of the body, behind the events of the instructions in front of it
    and before those of the guard. -/
theorem runs_of_weave (fits : frame.Fits M code) (closed : M.Closed code) {state : State} {events : List Event}
    {ending : Ending Exc Result} (steps : M.Steps (frame.weave code) ((frame.weave code).start state) events (.ended ending)) :
    ∃ first emitted last, M.Emits state frame.front first ∧
      M.Steps code (code.start state) emitted (.ended ending) ∧ frame.Closes M ending last ∧
      events = first ++ emitted ++ last := by
  have reached : Simulates M frame code state events (.ended ending) :=
    Machine.Steps.invariant _ (simulates_start frame code state)
      (fun _ _ _ _ _ ahead step => simulates_step fits closed ahead step) steps
  cases reached with
  | @body _ place first emitted pending front steps same =>
    refine ⟨first,emitted,pending,front,?_⟩
    cases same with
    | returned result => exact ⟨steps,rfl,rfl⟩
    | raised unguarded => exact ⟨steps,by simp [Frame.Closes,unguarded],rfl⟩
    | @rethrown guard state exc _ framed emits => exact ⟨steps,by simpa [Frame.Closes,framed] using ⟨state,emits⟩,rfl⟩

variable (code) in
/-- The run of the added instructions in front of others. -/
theorem steps_plain {state : State} {added : List Insn} {events : List Event} (emits : M.Emits state added events)
    (before rest : List (Item Label Insn)) :
    M.Steps code (.running before (plain added ++ rest) state) events (.running (before ++ plain added) rest state) := by
  induction added generalizing before events with
  | nil =>
    cases emits
    rw [plain_nil,List.nil_append,List.append_nil]
    exact .refl
  | cons other added ih =>
    obtain ⟨first,later,effect,remaining,rfl⟩ := emits
    have one : M.Step code (.running before (plain (other :: added) ++ rest) state) ([] ++ first)
        (.running (before ++ [.insn [] other]) (plain added ++ rest) state) := .next rfl effect
    have others := ih remaining (before ++ [.insn [] other])
    rw [List.nil_append] at one
    simpa using (Machine.Steps.single one).trans others

/-- Where the woven body is when the body is at a place. -/
def Reaches (M : Machine Label Insn Kind Event State Exc Result) (frame : Frame Label Insn)
    (code : Body Label Insn Kind) :
    Config Label Insn State Exc Result → Config Label Insn State Exc Result → Prop
  | .running before rest state, config =>
    config = .running (frame.head ++ woven before) (woven rest ++ frame.tail) state
  | .ended (.returned result), config => config = .ended (.returned result)
  | .ended (.raised exc), config =>
    match frame.guard with
    | none => config = .ended (.raised exc)
    | some _ => ∃ state, config = .running (frame.head ++ woven code.items) frame.tail (M.caught state exc)

theorem step_reaches (fits : frame.Fits M code) {before rest : List (Item Label Insn)} {state : State}
    {events : List Event} {place : Config Label Insn State Exc Result} (inside : before ++ rest = code.items)
    (step : M.Step code (.running before rest state) events place) :
    ∃ config, M.Steps (frame.weave code)
        (.running (frame.head ++ woven before) (woven rest ++ frame.tail) state) events config ∧
      Reaches M frame code place config := by
  have ahead : ∀ {rest added op first}, M.Emits state added first →
      M.Steps (frame.weave code)
        (.running (frame.head ++ woven before) (woven (.insn added op :: rest) ++ frame.tail) state) first
        (.running (frame.head ++ woven before ++ plain added) (.insn [] op :: (woven rest ++ frame.tail)) state) := by
    intro rest added op first emits
    have run := steps_plain (frame.weave code) emits (frame.head ++ woven before)
      (.insn [] op :: (woven rest ++ frame.tail))
    simpa using run
  cases step with
  | label name =>
    rw [woven_label,List.cons_append]
    refine ⟨_,.single (.label name),?_⟩
    simp [Reaches]
  | @next _ rest _ added op first events later emits effect =>
    refine ⟨_,(ahead emits).trans (.single (.next (Machine.emits_none _) effect)),?_⟩
    simp [Reaches]
  | @jump _ rest _ added op first events label later before' rest' emits effect target =>
    have member : Item.insn added op ∈ code.items := by simp [← inside]
    have found : seek label (frame.weave code).items =
        some (frame.head ++ woven before',woven rest' ++ frame.tail) := by
      rw [seek_weave fun guard framed => (fits.guard guard framed).jumps _ _ member _ _ _ _ effect,target]
      rfl
    exact ⟨_,(ahead emits).trans (.single (.jump (Machine.emits_none _) effect found)),rfl⟩
  | finish emits effect => exact ⟨_,(ahead emits).trans (.single (.finish (Machine.emits_none _) effect)),rfl⟩
  | @caught _ rest _ added op first events exc label before' rest' emits effect handler target =>
    have avoids : ∀ guard ∈ frame.guard, guard.Avoids label := by
      intro guard framed
      obtain ⟨entry,found,rfl⟩ := Option.map_eq_some_iff.mp handler
      exact ((fits.guard guard framed).handlers entry (List.mem_of_find?_eq_some found)).2.2
    have found : seek label (frame.weave code).items =
        some (frame.head ++ woven before',woven rest' ++ frame.tail) := by
      rw [seek_weave avoids,target]
      rfl
    have outer := handlerOf_weave fits.guard before rest added added op exc
    rw [handler,Option.some_or] at outer
    exact ⟨_,(ahead emits).trans (.single (.caught (Machine.emits_none _) effect outer found)),rfl⟩
  | @raised _ rest _ added op first events exc emits effect uncaught =>
    have outer := handlerOf_weave fits.guard before rest added added op exc
    rw [uncaught,Option.none_or] at outer
    cases framed : frame.guard with
    | none =>
      rw [framed,Option.map_none] at outer
      exact ⟨_,(ahead emits).trans (.single (.raised (Machine.emits_none _) effect outer)),by simp [Reaches,framed]⟩
    | some guard =>
      rw [framed,Option.map_some] at outer
      have found := seek_guard framed (fits.guard guard framed)
      exact ⟨_,(ahead emits).trans (.single (.caught (Machine.emits_none _) effect outer found)),by simpa [Reaches,framed] using ⟨state,rfl⟩⟩

/-- Every run of the body is one of the woven body. -/
theorem weave_of_runs (fits : frame.Fits M code)
    (closing : ∀ guard ∈ frame.guard, ∀ state, ∃ events, M.Emits state guard.handling events) {state : State}
    {first emitted : List Event} {ending : Ending Exc Result} (front : M.Emits state frame.front first)
    (steps : M.Steps code (code.start state) emitted (.ended ending)) :
    ∃ last, frame.Closes M ending last ∧
      M.Steps (frame.weave code) ((frame.weave code).start state) (first ++ emitted ++ last) (.ended ending) := by
  have opening : M.Steps (frame.weave code) ((frame.weave code).start state) first
      (.running frame.head (woven code.items ++ frame.tail) state) := by
    cases framed : frame.guard with
    | none =>
      have run := steps_plain (frame.weave code) front [] (woven code.items ++ frame.tail)
      simpa [Body.start,Frame.weave,Frame.head,framed] using run
    | some guard =>
      have label : M.Step (frame.weave code)
          (.running [] (.label guard.start :: (plain frame.front ++ (woven code.items ++ frame.tail))) state) []
          (.running ([] ++ [.label guard.start]) (plain frame.front ++ (woven code.items ++ frame.tail)) state) :=
        .label guard.start
      have run := steps_plain (frame.weave code) front [.label guard.start] (woven code.items ++ frame.tail)
      simpa [Body.start,Frame.weave,Frame.head,framed] using (Machine.Steps.single label).trans run
  have reached : ∀ events place, M.Steps code (code.start state) events place →
      ∃ config, M.Steps (frame.weave code) ((frame.weave code).start state) (first ++ events) config ∧
        Reaches M frame code place config := by
    intro events place steps
    induction steps with
    | refl => exact ⟨_,by simpa using opening,by simp [Reaches,Body.start]⟩
    | @step before middle events last steps step ih =>
      obtain ⟨config,run,here⟩ := ih
      cases middle with
      | ended ending => cases step
      | running before rest state' =>
        cases here
        obtain ⟨config,further,there⟩ := step_reaches fits steps.within step
        exact ⟨config,by simpa using run.trans further,there⟩
  obtain ⟨config,run,here⟩ := reached _ _ steps
  cases ending with
  | returned result =>
    cases here
    exact ⟨[],rfl,by simpa using run⟩
  | raised exc =>
    cases framed : frame.guard with
    | none =>
      rw [Reaches,framed] at here
      cases here
      exact ⟨[],by simp [Frame.Closes,framed],by simpa using run⟩
    | some guard =>
      rw [Reaches,framed] at here
      obtain ⟨state',rfl⟩ := here
      obtain ⟨last,emits⟩ := closing guard framed (M.caught state' exc)
      refine ⟨last,by simpa [Frame.Closes,framed] using ⟨state',emits⟩,?_⟩
      have opened : frame.tail = .label guard.stop :: (plain guard.handling ++ [.insn [] guard.rethrow]) := by
        simp [Frame.tail,framed]
      rw [opened] at run
      have label : M.Step (frame.weave code)
          (.running (frame.head ++ woven code.items)
            (.label guard.stop :: (plain guard.handling ++ [.insn [] guard.rethrow])) (M.caught state' exc)) []
          (.running (frame.head ++ woven code.items ++ [.label guard.stop])
            (plain guard.handling ++ [.insn [] guard.rethrow]) (M.caught state' exc)) := .label guard.stop
      have handling := steps_plain (frame.weave code) emits (frame.head ++ woven code.items ++ [.label guard.stop])
        [.insn [] guard.rethrow]
      have effect := ((fits.guard guard framed).rethrow state' exc [] (.raise exc)).mpr ⟨rfl,rfl⟩
      have again : M.Step (frame.weave code)
          (.running (frame.head ++ woven code.items ++ [.label guard.stop] ++ plain guard.handling)
            [.insn [] guard.rethrow] (M.caught state' exc)) ([] ++ []) (.ended (.raised exc)) :=
        .raised (Machine.emits_none _) effect (handlerOf_last _ _ (by simp) exc)
      simpa using run.trans ((Machine.Steps.single label).trans (handling.trans (.single again)))

/-! ## Without the added instructions -/

def Body.bare (code : Body Label Insn Kind) : Body Label Insn Kind := { code with items := code.items.map Item.bare }

def Config.bare : Config Label Insn State Exc Result → Config Label Insn State Exc Result
  | .running before rest state => .running (before.map Item.bare) (rest.map Item.bare) state
  | .ended ending => .ended ending

omit [DecidableEq Label] in
@[simp] theorem labels_bare (items : List (Item Label Insn)) : labels (items.map Item.bare) = labels items := by
  induction items with
  | nil => rfl
  | cons item rest ih =>
    cases item with
    | label name => simp [Item.bare,ih]
    | insn added insn => simp [Item.bare,ih]

omit [DecidableEq Label] in
@[simp] theorem plain_bare (insns : List Insn) :
    (plain insns : List (Item Label Insn)).map Item.bare = plain insns := by
  simp [plain,Item.bare]

theorem seek_bare (label : Label) (items : List (Item Label Insn)) :
    seek label (items.map Item.bare) =
      (seek label items).map fun found => (found.1.map Item.bare,found.2.map Item.bare) := by
  induction items with
  | nil => rfl
  | cons item rest ih =>
    have same : item.bare.labels = item.labels := by cases item <;> rfl
    rw [List.map_cons,seek,seek,same]
    by_cases here : label ∈ item.labels
    · rw [if_pos here,if_pos here]
      rfl
    · rw [if_neg here,if_neg here,ih,Option.map_map,Option.map_map]
      rfl

/-- Where an exception is caught depends on the labels only. -/
theorem handlerOf_congr {handlers : List (Handler Label Kind)} {before rest before' rest' : List (Item Label Insn)}
    (ahead : labels before = labels before') (behind : labels rest = labels rest') (exc : Exc) :
    M.handlerOf handlers before rest exc = M.handlerOf handlers before' rest' exc := by
  simp only [Machine.handlerOf,Handler.covers,ahead,behind]

/-- Where an instruction leads by what it does. -/
def Machine.Lands (M : Machine Label Insn Kind Event State Exc Result) (code : Body Label Insn Kind)
    (before : List (Item Label Insn)) (item : Item Label Insn) (rest : List (Item Label Insn)) (state : State) :
    Outcome Label State Exc Result → Config Label Insn State Exc Result → Prop
  | .next later, last => last = .running (before ++ [item]) rest later
  | .jump label later, last =>
    ∃ before' rest', seek label code.items = some (before',rest') ∧ last = .running before' rest' later
  | .finish result, last => last = .ended (.returned result)
  | .raise exc, last =>
    match M.handlerOf code.handlers before (item :: rest) exc with
    | some label =>
      ∃ before' rest', seek label code.items = some (before',rest') ∧ last = .running before' rest' (M.caught state exc)
    | none => last = .ended (.raised exc)

theorem Machine.step_insn {before rest : List (Item Label Insn)} {state : State} {added : List Insn} {op : Insn}
    {events : List Event} {last : Config Label Insn State Exc Result} :
    M.Step code (.running before (.insn added op :: rest) state) events last ↔
      ∃ own others outcome, events = own ++ others ∧ M.Emits state added own ∧ M.effect op state others outcome ∧
        M.Lands code before (.insn added op) rest state outcome last := by
  constructor
  · intro step
    cases step with
    | next emits effect => exact ⟨_,_,_,rfl,emits,effect,rfl⟩
    | jump emits effect target => exact ⟨_,_,_,rfl,emits,effect,_,_,target,rfl⟩
    | finish emits effect => exact ⟨_,_,_,rfl,emits,effect,rfl⟩
    | caught emits effect handler target =>
      refine ⟨_,_,_,rfl,emits,effect,?_⟩
      rw [Machine.Lands,handler]
      exact ⟨_,_,target,rfl⟩
    | raised emits effect uncaught =>
      refine ⟨_,_,_,rfl,emits,effect,?_⟩
      rw [Machine.Lands,uncaught]
  · rintro ⟨own,others,outcome,rfl,emits,effect,lands⟩
    cases outcome with
    | next later =>
      cases lands
      exact .next emits effect
    | jump label later =>
      obtain ⟨before',rest',target,rfl⟩ := lands
      exact .jump emits effect target
    | finish result =>
      cases lands
      exact .finish emits effect
    | raise exc =>
      rw [Machine.Lands] at lands
      cases handler : M.handlerOf code.handlers before (.insn added op :: rest) exc with
      | some label =>
        rw [handler] at lands
        obtain ⟨before',rest',target,rfl⟩ := lands
        exact .caught emits effect handler target
      | none =>
        rw [handler] at lands
        subst lands
        exact .raised emits effect handler

/-- An instruction leads to the same place without the added ones. -/
theorem lands_bare {before rest : List (Item Label Insn)} {state : State} {added : List Insn} {op : Insn}
    {outcome : Outcome Label State Exc Result} {last : Config Label Insn State Exc Result} :
    M.Lands code.bare (before.map Item.bare) (.insn [] op) (rest.map Item.bare) state outcome last ↔
      ∃ place, place.bare = last ∧ M.Lands code before (.insn added op) rest state outcome place := by
  have target : ∀ label later, (∃ before' rest', seek label code.bare.items = some (before',rest') ∧
        last = .running before' rest' later) ↔
      ∃ place : Config Label Insn State Exc Result, place.bare = last ∧
        ∃ before' rest', seek label code.items = some (before',rest') ∧ place = .running before' rest' later := by
    intro label later
    rw [Body.bare,seek_bare]
    constructor
    · rintro ⟨before',rest',found,rfl⟩
      obtain ⟨⟨first,second⟩,inside,same⟩ := Option.map_eq_some_iff.mp found
      cases same
      exact ⟨_,rfl,_,_,inside,rfl⟩
    · rintro ⟨place,rfl,before',rest',found,rfl⟩
      exact ⟨_,_,by rw [found]; rfl,rfl⟩
  cases outcome with
  | next later => simp [Machine.Lands,Config.bare,Item.bare,eq_comm]
  | jump label later => exact target label later
  | finish result => simp [Machine.Lands,Config.bare,eq_comm]
  | raise exc =>
    rw [Machine.Lands,show M.handlerOf code.bare.handlers (before.map Item.bare) (.insn [] op :: rest.map Item.bare) exc =
      M.handlerOf code.handlers before (.insn added op :: rest) exc from
        handlerOf_congr (labels_bare before) (by simp) exc]
    simp only [Machine.Lands]
    cases M.handlerOf code.handlers before (.insn added op :: rest) exc with
    | some label => exact target label _
    | none => simp [Config.bare,eq_comm]

/-- Every run without the added instructions is one with them, which emit some events in between. -/
theorem run_of_bare (visible : Event → Bool)
    (emits : ∀ added op, Item.insn added op ∈ code.items → ∀ state, ∃ events, M.Emits state added events ∧
      events.filter visible = []) {state : State} {events : List Event} {last : Config Label Insn State Exc Result}
    (steps : M.Steps code.bare (code.bare.start state) events last) :
    ∃ events' place, place.bare = last ∧ M.Steps code (code.start state) events' place ∧
      events'.filter visible = events.filter visible := by
  induction steps with
  | refl => exact ⟨[],_,rfl,.refl,rfl⟩
  | @step before middle events last steps step ih =>
    obtain ⟨events',place,rfl,run,same⟩ := ih
    cases place with
    | ended ending => cases step
    | running before' rest state' =>
      have inside : before' ++ rest = code.items := run.within
      suffices one : ∃ more place', place'.bare = last ∧ M.Step code (.running before' rest state') more place' ∧
          more.filter visible = events.filter visible by
        obtain ⟨more,place',rfl,step',same'⟩ := one
        exact ⟨_,place',rfl,run.step step',by rw [List.filter_append,List.filter_append,same,same']⟩
      cases rest with
      | nil => cases step
      | cons item rest =>
        cases item with
        | label name =>
          cases step
          exact ⟨[],_,by simp [Config.bare,Item.bare],.label name,rfl⟩
        | insn added op =>
          obtain ⟨own,emitted,hidden⟩ := emits added op (by simp [← inside]) state'
          obtain ⟨none,others,outcome,rfl,empty,effect,lands⟩ := Machine.step_insn.mp step
          cases empty
          obtain ⟨place',bare,lands⟩ := lands_bare.mp lands
          refine ⟨own ++ others,place',bare,Machine.step_insn.mpr ⟨_,_,_,rfl,emitted,effect,lands⟩,?_⟩
          rw [List.filter_append,hidden,List.nil_append,List.nil_append]

/-- Every run is one without the added instructions, but for the events of these. -/
theorem bare_of_run (visible : Event → Bool)
    (hidden : ∀ added op, Item.insn added op ∈ code.items → ∀ state own, M.Emits state added own →
      own.filter visible = []) {state : State} {events : List Event} {last : Config Label Insn State Exc Result}
    (steps : M.Steps code (code.start state) events last) :
    ∃ events', M.Steps code.bare (code.bare.start state) events' last.bare ∧
      events'.filter visible = events.filter visible := by
  induction steps with
  | refl => exact ⟨[],.refl,rfl⟩
  | @step before middle events last steps step ih =>
    obtain ⟨events',run,same⟩ := ih
    cases middle with
    | ended ending => cases step
    | running before' rest state' =>
      have inside : before' ++ rest = code.items := steps.within
      suffices one : ∃ more, M.Step code.bare (Config.running before' rest state').bare more last.bare ∧
          more.filter visible = events.filter visible by
        obtain ⟨more,step',same'⟩ := one
        exact ⟨_,run.step step',by rw [List.filter_append,List.filter_append,same,same']⟩
      cases rest with
      | nil => cases step
      | cons item rest =>
        cases item with
        | label name =>
          cases step
          refine ⟨[],?_,rfl⟩
          have bare : M.Step code.bare
              (.running (before'.map Item.bare) (.label name :: rest.map Item.bare) state') []
              (.running (before'.map Item.bare ++ [.label name]) (rest.map Item.bare) state') := .label name
          simpa [Config.bare,Item.bare] using bare
        | insn added op =>
          obtain ⟨own,others,outcome,rfl,emits,effect,lands⟩ := Machine.step_insn.mp step
          refine ⟨others,Machine.step_insn.mpr
            ⟨[],others,outcome,rfl,Machine.emits_none _,effect,lands_bare.mpr ⟨last,rfl,lands⟩⟩,?_⟩
          rw [List.filter_append,hidden added op (by simp [← inside]) _ _ emits,List.nil_append]

/-- The added instructions always emit something, and only what is not visible. -/
def Machine.Hides (M : Machine Label Insn Kind Event State Exc Result) (visible : Event → Bool)
    (added : List Insn) : Prop :=
  (∀ state, ∃ events, M.Emits state added events) ∧
    ∀ state events, M.Emits state added events → events.filter visible = []

/-- The woven body ends as the body does without the added instructions, with the same visible events. -/
theorem weave_transparent (fits : frame.Fits M code) (closed : M.Closed code) {visible : Event → Bool}
    (front : M.Hides visible frame.front)
    (hidden : ∀ added op, Item.insn added op ∈ code.items → M.Hides visible added)
    (handling : ∀ guard ∈ frame.guard, M.Hides visible guard.handling) (state : State) (ending : Ending Exc Result)
    (events : List Event) :
    (∃ whole, M.Steps (frame.weave code) ((frame.weave code).start state) whole (.ended ending) ∧
        whole.filter visible = events) ↔
      ∃ whole, M.Steps code.bare (code.bare.start state) whole (.ended ending) ∧ whole.filter visible = events := by
  have closes : ∀ last, frame.Closes M ending last → last.filter visible = [] := by
    intro last closing
    cases ending with
    | returned result =>
      cases closing
      rfl
    | raised exc =>
      unfold Frame.Closes at closing
      cases framed : frame.guard with
      | none =>
        rw [framed] at closing
        cases closing
        rfl
      | some guard =>
        rw [framed] at closing
        obtain ⟨state',emits⟩ := closing
        exact (handling guard framed).2 _ _ emits
  constructor
  · rintro ⟨whole,steps,rfl⟩
    obtain ⟨first,emitted,last,emits,run,closing,rfl⟩ := runs_of_weave fits closed steps
    obtain ⟨events',bare,same⟩ := bare_of_run visible
      (fun added op member => (hidden added op member).2) run
    refine ⟨events',bare,?_⟩
    rw [List.filter_append,List.filter_append,front.2 _ _ emits,closes _ closing,List.nil_append,List.append_nil,same]
  · rintro ⟨whole,steps,rfl⟩
    obtain ⟨emitted,place,bare,run,same⟩ := run_of_bare visible (fun added op member state' => by
      obtain ⟨own,emits⟩ := (hidden added op member).1 state'
      exact ⟨own,emits,(hidden added op member).2 _ _ emits⟩) steps
    cases place with
    | running before rest state' => cases bare
    | ended ending' =>
      cases bare
      obtain ⟨first,emits⟩ := front.1 state
      obtain ⟨last,closing,run'⟩ := weave_of_runs fits (fun guard framed => (handling guard framed).1) emits run
      refine ⟨_,run',?_⟩
      rw [List.filter_append,List.filter_append,front.2 _ _ emits,closes _ closing,List.nil_append,List.append_nil,same]

/-- What holds of the events of every instruction of a body with none added, and of those of two runs together,
    holds of the run. -/
theorem Machine.Steps.events_of {P : List Event → Prop} (none : P [])
    (both : ∀ first second, P first → P second → P (first ++ second))
    (bare : ∀ added op, Item.insn added op ∈ code.items → added = [])
    (each : ∀ added op, Item.insn added op ∈ code.items → ∀ state events outcome,
      M.effect op state events outcome → P events) {state : State}
    {events : List Event} {last : Config Label Insn State Exc Result}
    (steps : M.Steps code (code.start state) events last) : P events := by
  induction steps with
  | refl => exact none
  | @step before middle events last steps step ih =>
    refine both _ _ ih ?_
    cases middle with
    | ended ending => cases step
    | running before' rest state' =>
      have inside : before' ++ rest = code.items := steps.within
      cases rest with
      | nil => cases step
      | cons item rest =>
        cases item with
        | label name =>
          cases step
          exact none
        | insn added op =>
          have member : Item.insn added op ∈ code.items := by simp [← inside]
          obtain ⟨own,others,outcome,rfl,emits,effect,-⟩ := Machine.step_insn.mp step
          cases bare added op member
          cases emits
          exact each [] op member _ _ _ effect

end Weaving

end Vexjine.InstructionLists
