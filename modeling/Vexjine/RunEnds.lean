import Vexjine.Weavings

/-!
# Instructions that end a run

Where instructions are added only in front of those that lead straight to the end
of a run, their events come once, at the end.
-/

namespace Vexjine.InstructionLists

universe u
variable {Label Insn Kind Event State Exc Result : Type u}

/-- A part of a body: an item, or instructions that lead straight to the end of the run, with instructions
    added in front of the first of them. -/
inductive Chunk (Label Insn : Type u)
  | label (name : Label)
  | insn (op : Insn)
  | closing (added ahead : List Insn) (last : Insn)

def Chunk.items : Chunk Label Insn → List (Item Label Insn)
  | .label name => [.label name]
  | .insn op => [.insn [] op]
  | .closing added [] last => [.insn added last]
  | .closing added (first :: ahead) last => .insn added first :: plain (ahead ++ [last])

def flat (chunks : List (Chunk Label Insn)) : List (Item Label Insn) := chunks.flatMap Chunk.items

@[simp] theorem flat_append (first second : List (Chunk Label Insn)) : flat (first ++ second) = flat first ++ flat second :=
  List.flatMap_append

theorem flat_cons (chunk : Chunk Label Insn) (rest : List (Chunk Label Insn)) :
    flat (chunk :: rest) = chunk.items ++ flat rest := List.flatMap_cons

section Ending
variable [DecidableEq Label] {M : Machine Label Insn Kind Event State Exc Result}

/-- A label stands between chunks. -/
theorem seek_flat {label : Label} {chunks : List (Chunk Label Insn)} {before rest : List (Item Label Insn)}
    (found : seek label (flat chunks) = some (before,rest)) :
    ∃ first second, chunks = first ++ second ∧ before = flat first ∧ rest = flat second := by
  induction chunks generalizing before with
  | nil => simp [flat,seek] at found
  | cons chunk chunks ih =>
    have skip : label ∉ labels chunk.items →
        ∃ first second, chunk :: chunks = first ++ second ∧ before = flat first ∧ rest = flat second := by
      intro absent
      rw [flat_cons,seek_append_right absent] at found
      obtain ⟨⟨before',rest'⟩,later,same⟩ := Option.map_eq_some_iff.mp found
      cases same
      obtain ⟨first,second,rfl,rfl,rfl⟩ := ih later
      exact ⟨chunk :: first,second,rfl,rfl,rfl⟩
    cases chunk with
    | label name =>
      by_cases here : label = name
      · subst here
        simp only [flat_cons,Chunk.items,List.cons_append,List.nil_append,seek,Item.labels,List.mem_singleton,
          if_true,Option.some.injEq,Prod.mk.injEq] at found
        obtain ⟨rfl,rfl⟩ := found
        exact ⟨[],_,rfl,rfl,rfl⟩
      · exact skip (by simpa [Chunk.items] using here)
    | insn op => exact skip (by simp [Chunk.items])
    | closing added ahead last => exact skip (by cases ahead <;> simp [Chunk.items])

/-- The ending an outcome is. -/
def Ending.outcome : Ending Exc Result → Outcome Label State Exc Result
  | .returned result => .finish result
  | .raised exc => .raise exc

/-- Only the ends of the closing parts return, and what they raise is not caught. The instructions ahead of
    these ends just go on. -/
structure Closings (M : Machine Label Insn Kind Event State Exc Result) (handlers : List (Handler Label Kind))
    (chunks : List (Chunk Label Insn)) : Prop where
  insn : ∀ op, Chunk.insn op ∈ chunks → ∀ state events result, ¬M.effect op state events (.finish result)
  ahead : ∀ added ahead last, Chunk.closing added ahead last ∈ chunks → ∀ op ∈ ahead, ∀ state events outcome,
    M.effect op state events outcome → ∃ later, outcome = .next later
  last : ∀ before added ahead last after, chunks = before ++ .closing added ahead last :: after →
    ∀ state events outcome, M.effect last state events outcome → ∃ ending : Ending Exc Result,
      outcome = ending.outcome ∧
      ∀ exc, ending = .raised exc → M.handlerOf handlers (flat before) (flat after) exc = none

/-- The instruction behind the place that ends a run: that of a closing part, with the events of the added
    instructions and then those of the others, or another one that raises an exception. -/
inductive Ends (M : Machine Label Insn Kind Event State Exc Result) (chunks : List (Chunk Label Insn))
    (place : List (Item Label Insn)) : Insn → Ending Exc Result → List Event → List Event → Prop
  | closed {before added ahead last after own late state ending}
    (split : chunks = before ++ .closing added ahead last :: after) (behind : labels place = labels (flat before))
    (emits : M.Emits state added own)
    (later : ∀ event ∈ late, ∃ op ∈ ahead ++ [last], ∃ state events outcome,
      M.effect op state events outcome ∧ event ∈ events) : Ends M chunks place last ending own late
  | raised {before op after exc} (split : chunks = before ++ .insn op :: after)
    (behind : labels place = labels (flat before)) : Ends M chunks place op (.raised exc) [] []

/-- Where a run is: between chunks, or within a closing part. -/
inductive Phase (M : Machine Label Insn Kind Event State Exc Result) (chunks : List (Chunk Label Insn)) :
    Config Label Insn State Exc Result → List Event → List Event → Prop
  | body {before after state} (split : chunks = before ++ after) :
    Phase M chunks (.running (flat before) (flat after) state) [] []
  | closing {before after added ahead last done todo place state state' own late}
    (split : chunks = before ++ .closing added ahead last :: after) (parts : done ++ todo = ahead)
    (behind : labels place = labels (flat before)) (emits : M.Emits state added own)
    (later : ∀ event ∈ late, ∃ op ∈ ahead ++ [last], ∃ state events outcome,
      M.effect op state events outcome ∧ event ∈ events) :
    Phase M chunks (.running place (plain todo ++ .insn [] last :: flat after) state') own late

/-- The configuration is on the way, or at the end that the configuration before it leads to. -/
def Follows (M : Machine Label Insn Kind Event State Exc Result) (chunks : List (Chunk Label Insn))
    (first last : Config Label Insn State Exc Result) (own late : List Event) : Prop :=
  Phase M chunks last own late ∨ ∃ place op rest state ending, first.bare = .running place (.insn [] op :: rest) state ∧
    last = .ended ending ∧ Ends M chunks place op ending own late

section Closing
variable {chunks : List (Chunk Label Insn)} {handlers : List (Handler Label Kind)}

/-- The last instruction of a closing part ends the run. -/
theorem closing_last (closings : Closings M handlers chunks) {before after : List (Chunk Label Insn)}
    {added ahead : List Insn} {last : Insn} (split : chunks = before ++ .closing added ahead last :: after)
    {place : List (Item Label Insn)} (behind : labels place = labels (flat before)) {item : Item Label Insn}
    (unlabelled : item.labels = []) {state : State} {events : List Event}
    {outcome : Outcome Label State Exc Result} {config : Config Label Insn State Exc Result}
    (effect : M.effect last state events outcome)
    (lands : M.Lands { items := flat chunks,handlers } place item (flat after) state outcome config) :
    ∃ ending : Ending Exc Result, config = .ended ending := by
  obtain ⟨ending,rfl,uncaught⟩ := closings.last _ _ _ _ _ split _ _ _ effect
  refine ⟨ending,?_⟩
  cases ending with
  | returned result => exact lands
  | raised exc =>
    have same : labels (item :: flat after) = labels (flat after) := by
      rw [labels,List.flatMap_cons,unlabelled]
      rfl
    rw [Ending.outcome,Machine.Lands,handlerOf_congr behind same,uncaught exc rfl] at lands
    exact lands

/-- A step is one without the added instructions, and the events of these come between the others. -/
theorem phase_step (closings : Closings M handlers chunks) {first last : Config Label Insn State Exc Result}
    {own late events : List Event} (phase : Phase M chunks first own late)
    (step : M.Step { items := flat chunks,handlers } first events last) :
    ∃ early own' late' others, Follows M chunks first last own' late' ∧
      M.Step (Body.bare { items := flat chunks,handlers }) first.bare others last.bare ∧
      ((own = [] ∧ late = [] ∧ events = early ++ own' ++ late' ∧ others = early ++ late') ∨
        (own' = own ∧ late' = late ++ events ∧ others = events)) := by
  -- the step of an instruction, without those in front of it
  have without : ∀ {before rest : List (Item Label Insn)} {state added op others outcome},
      M.effect op state others outcome →
      M.Lands { items := flat chunks,handlers } before (.insn added op) rest state outcome last →
      M.Step (Body.bare { items := flat chunks,handlers })
        (Config.running before (.insn added op :: rest) state).bare others last.bare := by
    intro before rest state added op others outcome effect lands
    exact Machine.step_insn.mpr ⟨[],others,outcome,rfl,Machine.emits_none _,effect,lands_bare.mpr ⟨last,rfl,lands⟩⟩
  cases phase with
  | @body before after state split =>
    cases after with
    | nil => cases step
    | cons chunk after =>
      have split' : chunks = before ++ [chunk] ++ after := by simp [split]
      have member : chunk ∈ chunks := by simp [split]
      -- a label is met between chunks
      have target : ∀ {label : Label} {before' rest'},
          seek label (flat chunks) = some (before',rest') → ∀ state : State,
          Phase M chunks (.running before' rest' state) [] [] := by
        intro label before' rest' found state
        obtain ⟨first,second,same,rfl,rfl⟩ := seek_flat found
        exact .body same
      rw [flat_cons] at step ⊢
      cases chunk with
      | label name =>
        cases step
        have onward : Phase M chunks (.running (flat (before ++ [.label name])) (flat after) state) [] [] := .body split'
        rw [flat_append] at onward
        refine ⟨[],[],[],[],.inl (by simpa [flat,Chunk.items] using onward),?_,.inl ⟨rfl,rfl,rfl,rfl⟩⟩
        have bare : M.Step (Body.bare { items := flat chunks,handlers })
            (.running ((flat before).map Item.bare) (.label name :: (flat after).map Item.bare) state) []
            (.running ((flat before).map Item.bare ++ [.label name]) ((flat after).map Item.bare) state) := .label name
        simpa [Config.bare,Item.bare,Chunk.items] using bare
      | insn op =>
        obtain ⟨none,others,outcome,rfl,empty,effect,lands⟩ := Machine.step_insn.mp step
        cases empty
        refine ⟨others,[],[],others,?_,without effect lands,.inl ⟨rfl,rfl,by simp,by simp⟩⟩
        cases outcome with
        | next later =>
          cases lands
          have onward : Phase M chunks (.running (flat (before ++ [.insn op])) (flat after) later) [] [] := .body split'
          rw [flat_append] at onward
          exact .inl (by simpa [flat,Chunk.items] using onward)
        | jump label later =>
          obtain ⟨before',rest',found,rfl⟩ := lands
          exact .inl (target found later)
        | finish result => exact absurd effect (closings.insn op member _ _ _)
        | raise exc =>
          rw [Machine.Lands] at lands
          split at lands
          · obtain ⟨before',rest',found,rfl⟩ := lands
            exact .inl (target found _)
          · subst lands
            exact .inr ⟨_,_,_,_,_,rfl,rfl,.raised split (labels_bare _)⟩
      | closing added ahead final =>
        cases ahead with
        | nil =>
          obtain ⟨own,others,outcome,rfl,emits,effect,lands⟩ := Machine.step_insn.mp step
          obtain ⟨ending,rfl⟩ := closing_last closings split rfl rfl effect lands
          refine ⟨[],own,others,others,.inr ⟨_,_,_,_,_,rfl,rfl,.closed split (labels_bare _) emits ?_⟩,
            without effect lands,.inl ⟨rfl,rfl,rfl,rfl⟩⟩
          intro event emitted
          exact ⟨final,by simp,_,_,_,effect,emitted⟩
        | cons head ahead =>
          have opened : (Chunk.closing added (head :: ahead) final).items ++ flat after =
              .insn added head :: (plain ahead ++ .insn [] final :: flat after) := by
            simp [Chunk.items]
          rw [opened] at step ⊢
          obtain ⟨own,others,outcome,rfl,emits,effect,lands⟩ := Machine.step_insn.mp step
          have without' := without effect lands
          obtain ⟨later,rfl⟩ := closings.ahead _ _ _ member head (by simp) _ _ _ effect
          cases lands
          refine ⟨[],own,others,others,.inl (.closing split (List.singleton_append (x := head)) (by simp) emits ?_),without',
            .inl ⟨rfl,rfl,rfl,rfl⟩⟩
          intro event emitted
          exact ⟨head,by simp,_,_,_,effect,emitted⟩
  | @closing before after added ahead final done todo place state state' own late split parts behind emits later =>
    have member : Chunk.closing added ahead final ∈ chunks := by simp [split]
    cases todo with
    | nil =>
      obtain ⟨none,others,outcome,rfl,empty,effect,lands⟩ := Machine.step_insn.mp step
      cases empty
      obtain ⟨ending,rfl⟩ := closing_last closings split behind rfl effect lands
      refine ⟨[],own,late ++ others,others,
        .inr ⟨_,_,_,_,_,rfl,rfl,.closed split ((labels_bare _).trans behind) emits ?_⟩,without effect lands,
        .inr ⟨rfl,rfl,rfl⟩⟩
      intro event emitted
      rcases List.mem_append.mp emitted with old | new
      · exact later event old
      · exact ⟨final,by simp,_,_,_,effect,new⟩
    | cons head todo =>
      obtain ⟨none,others,outcome,rfl,empty,effect,lands⟩ := Machine.step_insn.mp step
      cases empty
      have without' := without effect lands
      obtain ⟨state'',rfl⟩ := closings.ahead _ _ _ member head (by simp [← parts]) _ _ _ effect
      cases lands
      refine ⟨[],own,late ++ others,others,.inl ?_,without',.inr ⟨rfl,rfl,rfl⟩⟩
      have parts' : (done ++ [head]) ++ todo = ahead := by simpa using parts
      refine .closing split parts' (by simp [behind]) emits ?_
      intro event emitted
      rcases List.mem_append.mp emitted with old | new
      · exact later event old
      · exact ⟨head,by simp [← parts],_,_,_,effect,new⟩

/-- The events of the added instructions come once, at the closing part that ends the run, if one does. -/
theorem closing_runs (closings : Closings M handlers chunks) {state : State} {events : List Event}
    {ending : Ending Exc Result}
    (steps : M.Steps { items := flat chunks,handlers } (Body.start { items := flat chunks,handlers } state) events
      (.ended ending)) :
    ∃ early own late first more place op rest state', events = early ++ own ++ late ∧ early ++ late = first ++ more ∧
      Ends M chunks place op ending own late ∧
      M.Steps (Body.bare { items := flat chunks,handlers })
        (Body.start (Body.bare { items := flat chunks,handlers }) state) first
        (.running place (.insn [] op :: rest) state') ∧
      M.Step (Body.bare { items := flat chunks,handlers }) (.running place (.insn [] op :: rest) state') more
        (.ended ending) := by
  -- a run without its last step is on the way
  have reached : ∀ {events config}, M.Steps { items := flat chunks,handlers }
        (Body.start { items := flat chunks,handlers } state) events config → (∀ ending, config ≠ .ended ending) →
      ∃ early own late, events = early ++ own ++ late ∧ Phase M chunks config own late ∧
        M.Steps (Body.bare { items := flat chunks,handlers })
          (Body.start (Body.bare { items := flat chunks,handlers }) state) (early ++ late) config.bare := by
    intro events config steps
    induction steps with
    | refl => exact fun _ => ⟨[],[],[],rfl,.body (List.nil_append chunks).symm,.refl⟩
    | @step before middle more last steps step ih =>
      intro onward
      have running : ∀ ending, middle ≠ .ended ending := by
        rintro ending rfl
        cases step
      obtain ⟨early,own,late,rfl,phase,run⟩ := ih running
      obtain ⟨early',own',late',others,phase' | ⟨_,_,_,_,ending,-,finished,-⟩,step',
        ⟨rfl,rfl,rfl,rfl⟩ | ⟨rfl,rfl,rfl⟩⟩ := phase_step closings phase step
      · exact ⟨early ++ early',own',late',by simp,phase',by simpa using run.step step'⟩
      · exact ⟨early,own',late ++ others,by simp,phase',by simpa using run.step step'⟩
      · exact absurd finished (onward ending)
      · exact absurd finished (onward ending)
  cases steps with
  | @step before middle more last steps step =>
    have running : ∀ ending, middle ≠ .ended ending := by
      rintro ending rfl
      cases step
    obtain ⟨early,own,late,rfl,phase,run⟩ := reached steps running
    obtain ⟨early',own',late',others,phase' | ⟨place,op,rest,state',ending',same,finished,ends⟩,step',
      ⟨rfl,rfl,rfl,rfl⟩ | ⟨rfl,rfl,rfl⟩⟩ := phase_step closings phase step
    · cases phase'
    · cases phase'
    · cases finished
      rw [same] at run step'
      exact ⟨early ++ early',own',late',early,early' ++ late',place,op,rest,state',by simp,by simp,ends,by simpa using run,
        step'⟩
    · cases finished
      rw [same] at run step'
      exact ⟨early,own',late ++ others,early ++ late,others,place,op,rest,state',by simp,by simp,ends,run,step'⟩

end Closing

end Ending

end Vexjine.InstructionLists
