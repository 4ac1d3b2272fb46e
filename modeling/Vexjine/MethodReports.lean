import Vexjine.BasicBlockAdapter
import Vexjine.CallTimes

/-!
# The reports of an instrumented method

However a method uses its instructions, the instrumented one does what the method
does with its calls replaced: the reports only come in between. Where exceptions
are handled, every run that ends reports its entry first and its exit last, once
each. Without the handler the exit is reported exactly when the run returns or
is ended by a throw outside of the ranges of the exception table.
-/

namespace Vexjine.MethodReports
open Vexjine.InstructionLists Vexjine.BasicBlockAdapter Vexjine.MethodEvents
open BasicBlockMethodAdapter (notifier)

/-! ## The virtual machine -/

/-- What can be observed of a run: the reports to the profiler, and everything else. -/
inductive Occurrence (Out : Type)
  | report (event : MethodEvents.Event)
  | output (out : Out)

namespace Occurrence
variable {Out : Type}

def report? : Occurrence Out → Option MethodEvents.Event
  | report event => some event
  | output _ => none

def isOutput : Occurrence Out → Bool
  | report _ => false
  | output _ => true

end Occurrence

variable {Label Other Out State Exc Result : Type}

/-- The reports among the observations. -/
def reportsOf (occurrences : List (Occurrence Out)) : List MethodEvents.Event := occurrences.filterMap Occurrence.report?

@[simp] theorem reportsOf_nil : reportsOf ([] : List (Occurrence Out)) = [] := rfl

@[simp] theorem reportsOf_append (first second : List (Occurrence Out)) :
    reportsOf (first ++ second) = reportsOf first ++ reportsOf second := List.filterMap_append

abbrev Jvm (Label Other Out State Exc Result : Type) :=
  Machine (NewLabel Label) (Written Label Other) String (Occurrence Out) State Exc Result

/-- The instructions of the release of a monitor, as a synchronised method reports it. -/
def OfRelease (op : Written Label Other) : Prop :=
  (∃ name, op = .source (.ldcClass name)) ∨ (∃ var, op = .source (.varInsn ALOAD var)) ∨
    op = .source (.methodInsn INVOKESTATIC "java/lang/System" "identityHashCode" "(Ljava/lang/Object;)I") ∨
    op = notifier "_beforeReleasingMonitor" "(I)V"

/-- The instructions of the virtual machine as far as the adapter relies on them: the reports only report, the
    return instructions return and no others do, a throw raises what is caught, jumps lead to the labels of the
    instruction, and the release of a monitor goes on without a report. -/
structure Lawful (M : Jvm Label Other Out State Exc Result) : Prop where
  instrument : ∀ methodId callback, M.Silent (.methodInstrument methodId callback)
  hides : ∀ methodId callback, M.Hides Occurrence.isOutput [.methodInstrument methodId callback]
  entry : ∀ methodId state occurrences,
    M.effect (.methodInstrument methodId "_afterMethodEntry") state occurrences (.next state) ↔
      ∃ clocks, occurrences = [.report (.entry methodId clocks)]
  exit : ∀ methodId state occurrences,
    M.effect (.methodInstrument methodId "_beforeMethodExit") state occurrences (.next state) ↔
      ∃ clocks, occurrences = [.report (.exit methodId clocks)]
  returns : ∀ opcode, isReturn opcode → ∀ state occurrences outcome,
    M.effect (.source (.insn opcode)) state occurrences outcome →
      occurrences = [] ∧ ∃ result, outcome = .finish result
  finishes : ∀ op state occurrences result, M.effect op state occurrences (.finish result) →
    ∃ opcode, isReturn opcode ∧ op = .source (.insn opcode)
  athrow : ∀ state occurrences outcome, M.effect (.source (.insn ATHROW)) state occurrences outcome →
    occurrences = [] ∧ ∃ exc, outcome = .raise exc
  rethrow : ∀ state exc occurrences outcome,
    M.effect (.source (.insn ATHROW)) (M.caught state exc) occurrences outcome ↔
      occurrences = [] ∧ outcome = .raise exc
  jumps : ∀ insn state occurrences label later,
    M.effect (.source insn) state occurrences (.jump label later) → label ∈ insn.targets
  release : ∀ op, OfRelease op → ∀ state occurrences outcome, M.effect op state occurrences outcome →
    reportsOf occurrences = [] ∧ ∃ later, outcome = .next later

/-- The virtual machine on which nothing but reports, returns, throws, jumps and calls of `print` has an effect, and
    the methods of accounts must be called. -/
def idleJvm : Jvm ℕ Empty Unit Unit Unit Unit where
  effect
    | .methodInstrument methodId callback, _, occurrences, outcome => outcome = .next () ∧
      if callback = "_afterMethodEntry" then ∃ clocks, occurrences = [.report (.entry methodId clocks)]
      else if callback = "_beforeMethodExit" then ∃ clocks, occurrences = [.report (.exit methodId clocks)]
      else occurrences = []
    | .source (.insn opcode), _, occurrences, outcome => occurrences = [] ∧
      outcome = if isReturn opcode then .finish () else if opcode = ATHROW then .raise () else .next ()
    | .source (.methodInsn _ owner name _), _, occurrences, outcome =>
      owner ≠ "Account" ∧ occurrences = (if name = "print" then [.output ()] else []) ∧ outcome = .next ()
    | .source (.jumpInsn opcode label), _, occurrences, outcome => occurrences = [] ∧
      (outcome = .jump label () ∨ opcode ≠ GOTO ∧ outcome = .next ())
    | .source _, _, occurrences, outcome => occurrences = [] ∧ outcome = .next ()
  catches _ _ := true
  caught _ _ := ()

theorem idleJvm_lawful : Lawful idleJvm := by
  refine ⟨?_,?_,?_,?_,?_,?_,?_,?_,?_,?_⟩
  · intro methodId callback state occurrences outcome effect
    exact effect.1
  · intro methodId callback
    constructor
    · intro state
      by_cases entry : callback = "_afterMethodEntry"
      · exact ⟨[.report (.entry methodId 0)],_,[],⟨rfl,by rw [if_pos entry]; exact ⟨0,rfl⟩⟩,rfl,rfl⟩
      · by_cases exit : callback = "_beforeMethodExit"
        · exact ⟨[.report (.exit methodId 0)],_,[],
            ⟨rfl,by rw [if_neg entry,if_pos exit]; exact ⟨0,rfl⟩⟩,rfl,rfl⟩
        · exact ⟨[],[],[],⟨rfl,by rw [if_neg entry,if_neg exit]⟩,rfl,rfl⟩
    · rintro state occurrences ⟨first,later,⟨-,reported⟩,rfl,rfl⟩
      split at reported
      · obtain ⟨clocks,rfl⟩ := reported
        rfl
      · split at reported
        · obtain ⟨clocks,rfl⟩ := reported
          rfl
        · rw [reported]
          rfl
  · intro methodId state occurrences
    simp [idleJvm]
  · intro methodId state occurrences
    simp [idleJvm]
  · rintro opcode returns state occurrences outcome ⟨quiet,rfl⟩
    exact ⟨quiet,(),by rw [if_pos returns]⟩
  · intro op state occurrences result effect
    cases op with
    | methodInstrument methodId callback => cases effect.1
    | source insn =>
      cases insn with
      | insn opcode =>
        have ends := effect.2
        split at ends
        · exact ⟨opcode,by assumption,rfl⟩
        · split at ends <;> cases ends
      | methodInsn opcode owner name desc => cases effect.2.2
      | jumpInsn opcode label => rcases effect.2 with same | ⟨-,same⟩ <;> cases same
      | _ => cases effect.2
  · rintro state occurrences outcome ⟨quiet,rfl⟩
    exact ⟨quiet,(),rfl⟩
  · rintro state ⟨⟩ occurrences outcome
    rfl
  · intro insn state occurrences label later effect
    cases insn with
    | insn opcode =>
      have ends := effect.2
      split at ends
      · cases ends
      · split at ends <;> cases ends
    | methodInsn opcode owner name desc => cases effect.2.2
    | jumpInsn opcode label =>
      rcases effect.2 with same | ⟨-,same⟩
      · cases same
        exact List.mem_singleton.mpr rfl
      · cases same
    | _ => cases effect.2
  · rintro op (⟨name,rfl⟩ | ⟨var,rfl⟩ | rfl | rfl) state occurrences outcome effect
    · exact ⟨effect.1 ▸ rfl,(),effect.2⟩
    · exact ⟨effect.1 ▸ rfl,(),effect.2⟩
    · exact ⟨effect.2.1 ▸ rfl,(),effect.2.2⟩
    · exact ⟨effect.2.1 ▸ rfl,(),effect.2.2⟩

/-- The method is profiled under its own id, and its time is not described by a model. -/
structure Profiled (adapter : BasicBlockMethodAdapter) : Prop extends adapter.Plain where
  profile : adapter.profile = true
  reports : adapter.reports = true
  measured : adapter.isMethodDescribedByPerformanceModel = false

/-! ## The parts of the new body -/

/-- An instruction of the visited body, or a call in its place, that does not return. -/
def Passing (op : Written Label Other) : Prop :=
  ∃ insn : Insn (NewLabel Label) Other, op = .source insn ∧ (∀ label ∈ insn.targets, ∃ name, label = .given name) ∧
    ∀ opcode, insn = .insn opcode → isReturn opcode = false

/-- A call, or an instruction that prepares one. -/
def Calling (op : Written Label Other) : Prop :=
  ∃ insn : Insn (NewLabel Label) Other, op = .source insn ∧ insn.targets = [] ∧ ∀ opcode, insn ≠ .insn opcode

theorem Calling.passing {op : Written Label Other} (calling : Calling op) : Passing op := by
  obtain ⟨insn,rfl,targets,others⟩ := calling
  exact ⟨insn,rfl,by simp [targets],fun opcode same => absurd same (others opcode)⟩

theorem calling_methodInsn (opcode : Nat) (owner name desc : String) :
    Calling (.source (.methodInsn opcode owner name desc) : Written Label Other) :=
  ⟨_,rfl,rfl,by simp⟩

theorem calling_notifier (name desc : String) : Calling (notifier name desc : Written Label Other) :=
  calling_methodInsn _ _ _ _

theorem passing_insn {opcode : Nat} (passes : isReturn opcode = false) :
    Passing (.source (.insn opcode) : Written Label Other) :=
  ⟨_,rfl,by simp [Insn.targets],by simpa using passes⟩

theorem passing_given {insn : Insn Label Other} (passes : ∀ opcode, insn ≠ .insn opcode) :
    Passing (.source insn.given : Written Label Other) := by
  refine ⟨insn.given,rfl,?_,?_⟩
  · cases insn <;> simp [Insn.given,Insn.targets]
  · cases insn with
    | insn opcode => exact absurd rfl (passes opcode)
    | _ => simp [Insn.given]

section Adapter
variable (adapter : BasicBlockMethodAdapter)

theorem transformedWait_calling {opcode : Nat} {owner name desc : String} {written : List (Written Label Other)}
    (transformed : adapter.transformedWait opcode owner name desc = some written) : ∀ op ∈ written, Calling op := by
  unfold BasicBlockMethodAdapter.transformedWait at transformed
  split_ifs at transformed
  all_goals
    cases transformed
    simp only [List.mem_cons,List.not_mem_nil,or_false,forall_eq_or_imp,forall_eq]
    first
      | exact calling_notifier _ _
      | exact ⟨⟨_,rfl,rfl,by simp⟩,calling_notifier _ _⟩

theorem visitMethodInsn_calling (point : Int) (opcode : Nat) (owner name desc : String) :
    ∀ op ∈ (adapter.visitMethodInsn point opcode owner name desc : Int × List (Written Label Other)).2, Calling op := by
  unfold BasicBlockMethodAdapter.visitMethodInsn
  split
  · simp
  · split
    · intro op member
      rw [List.mem_singleton] at member
      exact member ▸ calling_notifier _ _
    · split
      · rename_i written transformed
        exact transformedWait_calling adapter transformed
      · intro op member
        simp only [List.mem_append,List.mem_singleton] at member
        rcases member with marking | rfl
        · split at marking
          · simp only [List.mem_cons,List.not_mem_nil,or_false] at marking
            rcases marking with rfl | rfl | rfl
            · exact calling_methodInsn _ _ _ _
            · exact ⟨_,rfl,rfl,by simp⟩
            · exact calling_methodInsn _ _ _ _
          · simp at marking
        · split_ifs
          all_goals
            first
              | exact calling_notifier _ _
              | exact calling_methodInsn _ _ _ _

theorem visitInsn_passing (simple : adapter.Plain) {depth : Int} {opcode : Nat}
    (inside : adapter.ends depth opcode = false) :
    ∀ piece ∈ (adapter.visitInsn depth opcode : List (Output Label Other)), ∃ op, piece = .insn op ∧ Passing op := by
  have passes : isReturn opcode = false := by
    rw [BasicBlockMethodAdapter.ends,Bool.or_eq_false_iff] at inside
    exact inside.1
  have stands : ¬(isReturn opcode || (!adapter.instrumentExceptionHandlingCode && opcode == ATHROW && depth == 0)) =
      true := by
    rw [BasicBlockMethodAdapter.ends] at inside
    simp [inside]
  have interaction : ∀ piece ∈ (adapter.onInteractionPointEncounter.map .insn :
      List (Output Label Other)), ∃ op, piece = .insn op ∧ Passing op := by
    intro piece member
    obtain ⟨op,listed,rfl⟩ := List.mem_map.mp member
    unfold BasicBlockMethodAdapter.onInteractionPointEncounter at listed
    split at listed
    · rw [List.mem_singleton] at listed
      exact ⟨op,rfl,listed ▸ (calling_methodInsn _ _ _ _).passing⟩
    · simp at listed
  intro piece member
  unfold BasicBlockMethodAdapter.visitInsn at member
  rw [simple.kept,if_neg (by decide),if_neg stands] at member
  split at member
  · rcases List.mem_append.mp member with before | last
    · rcases List.mem_append.mp before with copy | calls
      · split at copy
        · simp at copy
        · rw [List.mem_singleton] at copy
          exact ⟨_,copy,passing_insn rfl⟩
      · split at calls
        · rcases List.mem_append.mp calls with first | acquiring
          · rcases List.mem_cons.mp first with hash | point
            · exact ⟨_,hash,(calling_methodInsn _ _ _ _).passing⟩
            · exact interaction piece point
          · rw [List.mem_singleton] at acquiring
            exact ⟨_,acquiring,(calling_notifier _ _).passing⟩
        · rcases List.mem_append.mp calls with point | releasing
          · exact interaction piece point
          · simp only [List.mem_cons,List.not_mem_nil,or_false] at releasing
            rcases releasing with rfl | rfl
            · exact ⟨_,rfl,(calling_methodInsn _ _ _ _).passing⟩
            · exact ⟨_,rfl,(calling_notifier _ _).passing⟩
    · split at last
      · simp at last
      · rw [List.mem_singleton] at last
        exact ⟨_,last,passing_insn passes⟩
  · rw [List.mem_singleton] at member
    exact ⟨_,member,passing_insn passes⟩

/-- The parts of the new body. -/
def Part : Chunk (NewLabel Label) (Written Label Other) → Prop
  | .label name => ∃ given, name = .given given
  | .insn op => Passing op
  | .closing added ahead last => added = adapter.exits ∧ ahead = adapter.releaseMonitor ∧
      ∃ opcode, last = .source (.insn opcode) ∧
        (isReturn opcode ∨ adapter.instrumentExceptionHandlingCode = false ∧ opcode = ATHROW)

theorem parts_of_passing {pieces : List (Output Label Other)}
    (passing : ∀ piece ∈ pieces, ∃ op, piece = .insn op ∧ Passing op) :
    ∀ chunk ∈ pieces.flatMap Visit.chunk, Part adapter chunk := by
  intro chunk member
  obtain ⟨piece,listed,within⟩ := List.mem_flatMap.mp member
  obtain ⟨op,rfl,passes⟩ := passing piece listed
  rw [Visit.chunk,List.mem_singleton] at within
  exact within ▸ passes

variable [DecidableEq Label]

theorem chunksOf_parts (simple : adapter.Plain) (progress : Progress Label) (piece : Visit Label (Insn Label Other)) :
    ∀ chunk ∈ adapter.chunksOf progress piece, Part adapter chunk := by
  have given : ∀ insn : Insn Label Other, (∀ opcode, insn ≠ .insn opcode) →
      ∀ chunk ∈ ([.insn (.source insn.given)] : List (Output Label Other)).flatMap Visit.chunk, Part adapter chunk := by
    intro insn passes
    apply parts_of_passing
    intro piece member
    rw [List.mem_singleton] at member
    exact ⟨_,member,passing_given passes⟩
  cases piece with
  | tryCatchBlock start stop handler type => simp [BasicBlockMethodAdapter.chunksOf,BasicBlockMethodAdapter.visit,
      simple.kept,Visit.chunk]
  | label name => simp [BasicBlockMethodAdapter.chunksOf,BasicBlockMethodAdapter.visit,simple.kept,Visit.chunk,Part]
  | insn insn =>
    cases insn with
    | insn opcode =>
      rw [BasicBlockMethodAdapter.chunksOf]
      by_cases ending : adapter.ends progress.tryCatchDepth opcode = true
      · rw [if_pos ending]
        intro chunk member
        rw [List.mem_singleton] at member
        subst member
        refine ⟨rfl,rfl,opcode,rfl,?_⟩
        simp only [BasicBlockMethodAdapter.ends,Bool.or_eq_true,Bool.and_eq_true,Bool.not_eq_true',beq_iff_eq] at ending
        rcases ending with returns | ⟨⟨unhandled,throws⟩,-⟩
        · exact .inl returns
        · exact .inr ⟨unhandled,throws⟩
      · rw [if_neg ending]
        exact parts_of_passing adapter (visitInsn_passing adapter simple (by simpa using ending))
    | methodInsn opcode owner name desc =>
      apply parts_of_passing
      intro piece member
      obtain ⟨op,listed,rfl⟩ := List.mem_map.mp member
      exact ⟨op,rfl,(visitMethodInsn_calling adapter _ _ _ _ _ op listed).passing⟩
    | lookupSwitchInsn dflt keys labels => exact given _ (by simp)
    | _ =>
      simp only [BasicBlockMethodAdapter.chunksOf,BasicBlockMethodAdapter.visit,simple.kept]
      exact given _ (by simp)

theorem bodyChunks_parts (simple : adapter.Plain) (visits : List (Visit Label (Insn Label Other)))
    (progress : Progress Label) : ∀ chunk ∈ adapter.bodyChunks progress visits, Part adapter chunk := by
  induction visits generalizing progress with
  | nil => simp [BasicBlockMethodAdapter.bodyChunks]
  | cons piece rest ih =>
    intro chunk member
    rcases List.mem_append.mp member with here | later
    · exact chunksOf_parts adapter simple progress piece chunk here
    · exact ih _ chunk later

/-- The labels of the exception table are those of the visited body. -/
theorem handlers_given (simple : adapter.Plain) (visits : List (Visit Label (Insn Label Other)))
    (progress : Progress Label) :
    (adapter.visitBody progress visits).flatMap Visit.handler = (visits.flatMap Visit.handler).map fun handler =>
      { start := .given handler.start,stop := .given handler.stop,target := .given handler.target,kind := handler.kind } := by
  have none : ∀ pieces : List (Output Label Other),
      (∀ piece ∈ pieces, ∃ op, piece = .insn op ) → pieces.flatMap Visit.handler = [] := by
    intro pieces insns
    rw [List.flatMap_eq_nil_iff]
    intro piece member
    obtain ⟨op,rfl⟩ := insns piece member
    rfl
  have written : ∀ insns : List (Written Label Other), (insns.map
      Visit.insn : List (Output Label Other)).flatMap Visit.handler = [] := by
    intro insns
    apply none
    intro piece member
    obtain ⟨op,-,rfl⟩ := List.mem_map.mp member
    exact ⟨op,rfl⟩
  induction visits generalizing progress with
  | nil => rfl
  | cons piece rest ih =>
    rw [BasicBlockMethodAdapter.visitBody,List.flatMap_append,ih,List.flatMap_cons,List.map_append]
    congr 1
    cases piece with
    | tryCatchBlock start stop handler type => simp [BasicBlockMethodAdapter.visit,simple.kept,Visit.handler]
    | label name => simp [BasicBlockMethodAdapter.visit,simple.kept,Visit.handler]
    | insn insn =>
      cases insn with
      | insn opcode =>
        show (adapter.visitInsn progress.tryCatchDepth opcode).flatMap Visit.handler = []
        unfold BasicBlockMethodAdapter.visitInsn
        rw [simple.kept,simple.unwrapped]
        split_ifs <;> simp [Visit.handler,written]
      | methodInsn opcode owner name desc => exact written _
      | lookupSwitchInsn dflt keys labels => rfl
      | _ => simp [BasicBlockMethodAdapter.visit,simple.kept,Visit.handler]

end Adapter

/-! ## The laws at the parts -/

section Laws
variable {adapter : BasicBlockMethodAdapter} {M : Jvm Label Other Out State Exc Result}

variable (adapter) in
theorem instrument_silent (lawful : Lawful M) {ops : List (Written Label Other)}
    (instruments : ops = adapter.onMethodEntryInstrumentation ∨ ops = adapter.onMethodExitInstrumentation) :
    ∀ op ∈ ops, M.Silent op := by
  intro op member
  rcases instruments with rfl | rfl
  · unfold BasicBlockMethodAdapter.onMethodEntryInstrumentation at member
    split at member
    · rw [List.mem_singleton] at member
      exact member ▸ lawful.instrument _ _
    · simp at member
  · unfold BasicBlockMethodAdapter.onMethodExitInstrumentation at member
    split at member
    · rw [List.mem_singleton] at member
      exact member ▸ lawful.instrument _ _
    · simp at member

variable (adapter) in
theorem exits_silent (lawful : Lawful M) : ∀ op ∈ adapter.exits, M.Silent op := by
  unfold BasicBlockMethodAdapter.exits
  split
  · exact instrument_silent adapter lawful (.inr rfl)
  · simp

theorem releaseMonitor_release :
    ∀ op ∈ (adapter.releaseMonitor : List (Written Label Other)), OfRelease op := by
  intro op member
  unfold BasicBlockMethodAdapter.releaseMonitor at member
  split at member
  · simp only [List.mem_cons,List.not_mem_nil,or_false] at member
    rcases member with rfl | rfl | rfl
    · split
      · exact .inl ⟨_,rfl⟩
      · exact .inr (.inl ⟨_,rfl⟩)
    · exact .inr (.inr (.inl rfl))
    · exact .inr (.inr (.inr rfl))
  · simp at member

/-- An item of the body is one of a part. -/
theorem mem_flat {added : List (Written Label Other)} {op : Written Label Other}
    {chunks : List (Chunk (NewLabel Label) (Written Label Other))} (member : Item.insn added op ∈ flat chunks) :
    Chunk.insn op ∈ chunks ∧ added = [] ∨
      ∃ added' ahead last, Chunk.closing added' ahead last ∈ chunks ∧ op ∈ ahead ++ [last] ∧
        (added = [] ∨ added = added') := by
  obtain ⟨chunk,listed,within⟩ := List.mem_flatMap.mp member
  cases chunk with
  | label name => simp [Chunk.items] at within
  | insn op' =>
    simp only [Chunk.items,List.mem_singleton,Item.insn.injEq] at within
    obtain ⟨rfl,rfl⟩ := within
    exact .inl ⟨listed,rfl⟩
  | closing added' ahead last =>
    refine .inr ⟨_,_,_,listed,?_⟩
    cases ahead with
    | nil =>
      simp only [Chunk.items,List.mem_singleton,Item.insn.injEq] at within
      obtain ⟨rfl,rfl⟩ := within
      exact ⟨by simp,.inr rfl⟩
    | cons first ahead =>
      rcases List.mem_cons.mp within with same | later
      · cases same
        exact ⟨by simp,.inr rfl⟩
      · obtain ⟨op',listed',same⟩ := List.mem_map.mp later
        cases same
        exact ⟨List.mem_cons_of_mem _ listed',.inl rfl⟩

theorem labels_flat {chunks : List (Chunk (NewLabel Label) (Written Label Other))}
    (parts : ∀ chunk ∈ chunks, Part adapter chunk) {label : NewLabel Label} (member : label ∈ labels (flat chunks)) :
    ∃ name, label = .given name := by
  obtain ⟨item,listed,within⟩ := List.mem_flatMap.mp member
  obtain ⟨chunk,listed',within'⟩ := List.mem_flatMap.mp listed
  cases item with
  | insn added op => simp [Item.labels] at within
  | label name =>
    simp only [Item.labels,List.mem_singleton] at within
    subst within
    have part := parts chunk listed'
    cases chunk with
    | label name' =>
      simp only [Chunk.items,List.mem_singleton,Item.label.injEq] at within'
      exact within' ▸ part
    | insn op => simp [Chunk.items] at within'
    | closing added ahead last =>
      cases ahead with
      | nil => simp [Chunk.items] at within'
      | cons first ahead => simp [Chunk.items,plain] at within'

theorem frame_guard {guard : Guard (NewLabel Label) (Written Label Other)} :
    adapter.frame.guard = some guard ↔ adapter.instrumentExceptionHandlingCode = true ∧ guard = adapter.exitGuard := by
  unfold BasicBlockMethodAdapter.frame
  cases adapter.instrumentExceptionHandlingCode <;> simp [eq_comm]

variable [DecidableEq Label]

/-- Jumps lead to labels of the visited body. -/
theorem jumps_given (lawful : Lawful M) (simple : adapter.Plain) {progress : Progress Label}
    {visits : List (Visit Label (Insn Label Other))} {added : List (Written Label Other)} {op : Written Label Other}
    (member : Item.insn added op ∈ (adapter.reported progress visits).items) {state : State}
    {occurrences : List (Occurrence Out)} {label : NewLabel Label} {later : State}
    (effect : M.effect op state occurrences (.jump label later)) : ∃ name, label = .given name := by
  rcases mem_flat member with ⟨listed,-⟩ | ⟨added',ahead,last,listed,within,-⟩
  · obtain ⟨insn,rfl,targets,-⟩ := bodyChunks_parts adapter simple visits progress _ listed
    exact targets _ (lawful.jumps _ _ _ _ _ effect)
  · obtain ⟨rfl,rfl,opcode,rfl,-⟩ := bodyChunks_parts adapter simple visits progress _ listed
    rcases List.mem_append.mp within with release | final
    · cases (lawful.release op (releaseMonitor_release op release) _ _ _ effect).2.choose_spec
    · rw [List.mem_singleton] at final
      subst final
      simpa [Insn.targets] using lawful.jumps _ _ _ _ _ effect

/-- The reports fit the body. -/
theorem frame_fits (lawful : Lawful M) (simple : adapter.Plain) (progress : Progress Label)
    (visits : List (Visit Label (Insn Label Other))) : adapter.frame.Fits M (adapter.reported progress visits) := by
  have parts := bodyChunks_parts adapter simple visits progress
  refine ⟨?_,?_,?_⟩
  · unfold BasicBlockMethodAdapter.frame
    split
    · exact instrument_silent adapter lawful (.inl rfl)
    · simp
  · intro added op member other listed
    rcases mem_flat member with ⟨-,rfl⟩ | ⟨added',ahead,last,closing,-,rfl | rfl⟩
    · simp at listed
    · simp at listed
    · obtain ⟨rfl,-⟩ := parts _ closing
      exact exits_silent adapter lawful other listed
  · intro guard framed
    obtain ⟨-,rfl⟩ := frame_guard.mp framed
    have avoids : ∀ name : Label, (adapter.exitGuard : Guard _ (Written Label Other)).Avoids (.given name) := by
      intro name
      exact ⟨by simp [BasicBlockMethodAdapter.exitGuard],by simp [BasicBlockMethodAdapter.exitGuard]⟩
    refine ⟨by simp [BasicBlockMethodAdapter.exitGuard],?_,?_,?_,?_,lawful.rethrow⟩
    · intro label member
      obtain ⟨name,rfl⟩ := labels_flat parts member
      exact avoids name
    · intro handler member
      rw [BasicBlockMethodAdapter.reported,handlers_given adapter simple] at member
      obtain ⟨entry,-,rfl⟩ := List.mem_map.mp member
      exact ⟨avoids _,avoids _,avoids _⟩
    · intro added op member state occurrences label later effect
      obtain ⟨name,rfl⟩ := jumps_given lawful simple member effect
      exact avoids name
    · exact instrument_silent adapter lawful (.inr rfl)

/-! ## A method that throws -/

/-- A body that is only a throw. -/
def throwing : List (Visit ℕ (Insn ℕ Empty)) := [.insn (.insn ATHROW)]

/-- A profiled method that throws an exception it declares. -/
def withdraw : BasicBlockMethodAdapter :=
  (BasicBlockMethodAdapter.new 110 true 0 "Account" "withdraw" "(I)V" ["Overdrawn"] {} none).1

theorem idleJvm_entry (methodId clocks : Int) (state : Unit) :
    idleJvm.effect (.methodInstrument methodId "_afterMethodEntry") state [.report (.entry methodId clocks)]
      (.next state) :=
  ⟨rfl,clocks,rfl⟩

theorem idleJvm_exit (methodId clocks : Int) (state : Unit) :
    idleJvm.effect (.methodInstrument methodId "_beforeMethodExit") state [.report (.exit methodId clocks)]
      (.next state) :=
  ⟨rfl,clocks,rfl⟩

theorem idleJvm_athrow (state : Unit) : idleJvm.effect (.source (.insn ATHROW)) state [] (.raise ()) := ⟨rfl,rfl⟩

theorem throwing_closed {adapter : BasicBlockMethodAdapter}
    (only : (adapter.reported {} throwing).items = [.insn [] (.source (.insn ATHROW))]) :
    idleJvm.Closed (adapter.reported {} throwing) := by
  have last : (adapter.reported {} throwing).items = [] ++ [.insn [] (.source (.insn ATHROW))] := only
  refine Machine.closed_of_last last ?_
  rintro state occurrences later ⟨-,ends⟩
  cases ends

theorem withdraw_closed : idleJvm.Closed (withdraw.reported {} throwing) :=
  throwing_closed rfl

/-- The handler around the body catches the exception and throws it on. -/
theorem withdraw_steps :
    idleJvm.Steps (codeOf (withdraw.instrument {} throwing)) ((codeOf (withdraw.instrument {} throwing)).start ())
      [.report (.entry 110 5),.report (.exit 110 8)] (.ended (.raised ())) := by
  have written : codeOf (withdraw.instrument {} throwing) =
      { items := [.label .startExceptionCatchingBlockLabel,.insn [] (.methodInstrument 110 "_afterMethodEntry"),
          .insn [] (.source (.insn ATHROW)),.label .endExceptionCatchingBlockLabel,
          .insn [] (.methodInstrument 110 "_beforeMethodExit"),.insn [] (.source (.insn ATHROW))]
        handlers := [{ start := .startExceptionCatchingBlockLabel,stop := .endExceptionCatchingBlockLabel
                       target := .endExceptionCatchingBlockLabel,kind := none }] } := rfl
  rw [written]
  refine .head (.label _) (.head (.next (Machine.emits_none _) (idleJvm_entry 110 5 ())) ?_)
  refine .head (.caught (Machine.emits_none _) (idleJvm_athrow ()) rfl rfl) ?_
  refine .head (.label _) (.head (.next (Machine.emits_none _) (idleJvm_exit 110 8 ())) ?_)
  exact .single (.raised (Machine.emits_none _) (idleJvm_athrow ()) rfl)

/-! ## What the reports leave alone -/

variable (adapter) in
omit [DecidableEq Label] in
theorem instruments_hide (lawful : Lawful M) {ops : List (Written Label Other)}
    (instruments : ops = [] ∨ ops = adapter.onMethodEntryInstrumentation ∨ ops = adapter.onMethodExitInstrumentation) :
    M.Hides Occurrence.isOutput ops := by
  have none : M.Hides Occurrence.isOutput [] :=
    ⟨fun _ => ⟨[],rfl⟩,by
      rintro state events rfl
      rfl⟩
  rcases instruments with rfl | rfl | rfl
  · exact none
  · unfold BasicBlockMethodAdapter.onMethodEntryInstrumentation
    split
    · exact lawful.hides _ _
    · exact none
  · unfold BasicBlockMethodAdapter.onMethodExitInstrumentation
    split
    · exact lawful.hides _ _
    · exact none

/-- The instrumented method can end just as the method does without reports, with the same outputs. -/
theorem outputs_kept (lawful : Lawful M) (simple : adapter.Plain) (progress : Progress Label)
    (visits : List (Visit Label (Insn Label Other))) (closed : M.Closed (adapter.reported progress visits))
    (state : State) (ending : Ending Exc Result) (outputs : List (Occurrence Out)) :
    (∃ occurrences, M.Steps (codeOf (adapter.instrument progress visits))
        ((codeOf (adapter.instrument progress visits)).start state) occurrences (.ended ending) ∧
        occurrences.filter Occurrence.isOutput = outputs) ↔
      ∃ occurrences, M.Steps (adapter.unreported progress visits) ((adapter.unreported progress visits).start state)
        occurrences (.ended ending) ∧ occurrences.filter Occurrence.isOutput = outputs := by
  rw [BasicBlockMethodAdapter.codeOf_instrument adapter simple]
  refine weave_transparent (frame_fits lawful simple progress visits) closed ?_ ?_ ?_ state ending outputs
  · unfold BasicBlockMethodAdapter.frame
    split
    · exact instruments_hide adapter lawful (.inr (.inl rfl))
    · exact instruments_hide adapter lawful (.inl rfl)
  · intro added op member
    rcases mem_flat member with ⟨-,rfl⟩ | ⟨added',ahead,last,closing,-,rfl | rfl⟩
    · exact instruments_hide adapter lawful (.inl rfl)
    · exact instruments_hide adapter lawful (.inl rfl)
    · obtain ⟨rfl,-⟩ := bodyChunks_parts adapter simple visits progress _ closing
      unfold BasicBlockMethodAdapter.exits
      split
      · exact instruments_hide adapter lawful (.inr (.inr rfl))
      · exact instruments_hide adapter lawful (.inl rfl)
  · intro guard framed
    obtain ⟨-,rfl⟩ := frame_guard.mp framed
    exact instruments_hide adapter lawful (.inr (.inr rfl))

theorem withdraw_profiled : Profiled withdraw := ⟨⟨by decide,by decide⟩,by decide,by decide,by decide⟩

/-- A body that prints and throws in a range with a handler, which jumps to where the body prints again. -/
def printing : List (Visit ℕ (Insn ℕ Empty)) :=
  [.tryCatchBlock 0 1 1 (some "Overdrawn"),.label 0,.insn (.methodInsn INVOKESTATIC "Log" "print" "()V"),
    .insn (.insn ATHROW),.label 1,.insn (.jumpInsn GOTO 2),.insn (.insn ATHROW),.label 2,
    .insn (.methodInsn INVOKESTATIC "Log" "print" "()V"),.insn (.insn RETURN)]

theorem printing_closed : idleJvm.Closed (withdraw.reported {} printing) := by
  have last : (withdraw.reported {} printing).items = (withdraw.reported {} printing).items.dropLast ++
      [.insn [.methodInstrument 110 "_beforeMethodExit"] (.source (.insn RETURN))] := rfl
  refine Machine.closed_of_last last ?_
  rintro state occurrences later ⟨-,ends⟩
  cases ends

theorem idleJvm_print (state : Unit) :
    idleJvm.effect (.source (.methodInsn INVOKESTATIC "Log" "print" "()V")) state [.output ()] (.next state) :=
  ⟨by decide,rfl,rfl⟩

theorem printing_steps :
    idleJvm.Steps (codeOf (withdraw.instrument {} printing)) ((codeOf (withdraw.instrument {} printing)).start ())
      [.report (.entry 110 5),.output (),.output (),.report (.exit 110 8)] (.ended (.returned ())) := by
  have written : codeOf (withdraw.instrument {} printing) =
      { items := [.label .startExceptionCatchingBlockLabel,.insn [] (.methodInstrument 110 "_afterMethodEntry"),
          .label (.given 0),.insn [] (.source (.methodInsn INVOKESTATIC "Log" "print" "()V")),
          .insn [] (.source (.insn ATHROW)),.label (.given 1),.insn [] (.source (.jumpInsn GOTO (.given 2))),
          .insn [] (.source (.insn ATHROW)),.label (.given 2),
          .insn [] (.source (.methodInsn INVOKESTATIC "Log" "print" "()V")),
          .insn [] (.methodInstrument 110 "_beforeMethodExit"),.insn [] (.source (.insn RETURN)),
          .label .endExceptionCatchingBlockLabel,.insn [] (.methodInstrument 110 "_beforeMethodExit"),
          .insn [] (.source (.insn ATHROW))]
        handlers := [{ start := .given 0,stop := .given 1,target := .given 1,kind := some "Overdrawn" },
          { start := .startExceptionCatchingBlockLabel,stop := .endExceptionCatchingBlockLabel
            target := .endExceptionCatchingBlockLabel,kind := none }] } := rfl
  have skips : idleJvm.effect (.source (.jumpInsn GOTO (.given 2))) () [] (.jump (.given 2) ()) := ⟨rfl,.inl rfl⟩
  rw [written]
  refine .head (.label _) (.head (.next (Machine.emits_none _) (idleJvm_entry 110 5 ())) (.head (.label _) ?_))
  refine .head (.next (Machine.emits_none _) (idleJvm_print ())) ?_
  refine .head (.caught (Machine.emits_none _) (idleJvm_athrow ()) rfl rfl) (.head (.label _) ?_)
  refine .head (.jump (Machine.emits_none _) skips rfl) (.head (.label _) ?_)
  refine .head (.next (Machine.emits_none _) (idleJvm_print ())) ?_
  refine .head (.next (Machine.emits_none _) (idleJvm_exit 110 8 ())) ?_
  exact .single (.finish (Machine.emits_none _) ⟨rfl,rfl⟩)

/-- The method prints and returns without the reports as well. -/
theorem outputs_kept_withdraw :
    ∃ occurrences, idleJvm.Steps (withdraw.unreported {} printing) ((withdraw.unreported {} printing).start ())
      occurrences (.ended (.returned ())) ∧ occurrences.filter Occurrence.isOutput = [.output (),.output ()] :=
  (outputs_kept idleJvm_lawful withdraw_profiled.toPlain {} printing printing_closed () (.returned ())
    [.output (),.output ()]).mp ⟨_,printing_steps,rfl⟩

/-! ## The entry and the exit -/

theorem not_return_athrow : isReturn ATHROW = false := by decide

/-- Only the instructions that are taken to end the method return, and a throw among them is not caught. -/
theorem body_closings (lawful : Lawful M) (simple : adapter.Plain) {progress : Progress Label}
    {visits : List (Visit Label (Insn Label Other))} {handlers : List (Handler (NewLabel Label) String)}
    (uncaught : ∀ before added ahead after, adapter.bodyChunks progress visits =
      before ++ .closing added ahead (.source (.insn ATHROW)) :: after →
        ∀ exc, M.handlerOf handlers (flat before) (flat after) exc = none) :
    Closings M handlers (adapter.bodyChunks progress visits) := by
  have parts := bodyChunks_parts adapter simple visits progress
  refine ⟨?_,?_,?_⟩
  · intro op member state occurrences result effect
    obtain ⟨insn,rfl,-,passes⟩ := parts _ member
    obtain ⟨opcode,returns,same⟩ := lawful.finishes _ _ _ _ effect
    rw [Written.source.injEq] at same
    rw [passes opcode same] at returns
    cases returns
  · intro added ahead last member op listed state occurrences outcome effect
    obtain ⟨-,rfl,-⟩ := parts _ member
    exact (lawful.release op (releaseMonitor_release op listed) _ _ _ effect).2
  · intro before added ahead last after split state occurrences outcome effect
    obtain ⟨-,-,opcode,rfl,returns | ⟨-,rfl⟩⟩ := parts (.closing added ahead last) (by simp [split])
    · obtain ⟨-,result,rfl⟩ := lawful.returns opcode returns _ _ _ effect
      exact ⟨.returned result,rfl,by simp⟩
    · obtain ⟨-,exc,rfl⟩ := lawful.athrow _ _ _ effect
      refine ⟨.raised exc,rfl,?_⟩
      intro exc' _
      exact uncaught _ _ _ _ split exc'

omit [DecidableEq Label] in
/-- The release of a monitor and the end of the method report nothing. -/
theorem closing_quiet (lawful : Lawful M) {added ahead : List (Written Label Other)} {last : Written Label Other}
    (part : Part adapter (.closing added ahead last)) {late : List (Occurrence Out)}
    (later : ∀ event ∈ late, ∃ op ∈ ahead ++ [last], ∃ state occurrences outcome,
      M.effect op state occurrences outcome ∧ event ∈ occurrences) : reportsOf late = [] := by
  obtain ⟨-,rfl,opcode,rfl,ends⟩ := part
  rw [reportsOf,List.filterMap_eq_nil_iff]
  intro event member
  obtain ⟨op,listed,state,occurrences,outcome,effect,within⟩ := later event member
  rcases List.mem_append.mp listed with release | last
  · have quiet := (lawful.release op (releaseMonitor_release op release) _ _ _ effect).1
    rw [reportsOf,List.filterMap_eq_nil_iff] at quiet
    exact quiet event within
  · rw [List.mem_singleton] at last
    subst last
    have quiet : occurrences = [] := by
      rcases ends with returns | ⟨-,rfl⟩
      · exact (lawful.returns opcode returns _ _ _ effect).1
      · exact (lawful.athrow _ _ _ effect).1
    rw [quiet] at within
    cases within

omit [DecidableEq Label] in
theorem emits_entry (lawful : Lawful M) (profiled : Profiled adapter) {state : State}
    {occurrences : List (Occurrence Out)} (emits : M.Emits state adapter.onMethodEntryInstrumentation occurrences) :
    ∃ clocks, occurrences = [.report (.entry adapter.methodId clocks)] := by
  unfold BasicBlockMethodAdapter.onMethodEntryInstrumentation at emits
  rw [if_pos profiled.reports,profiled.measured,if_neg (by decide)] at emits
  obtain ⟨first,later,effect,rfl,rfl⟩ := emits
  rw [List.append_nil]
  exact (lawful.entry _ _ _).mp effect

omit [DecidableEq Label] in
theorem emits_exit (lawful : Lawful M) (profiled : Profiled adapter) {state : State}
    {occurrences : List (Occurrence Out)} (emits : M.Emits state adapter.onMethodExitInstrumentation occurrences) :
    ∃ clocks, occurrences = [.report (.exit adapter.methodId clocks)] := by
  unfold BasicBlockMethodAdapter.onMethodExitInstrumentation at emits
  rw [if_pos profiled.reports,profiled.measured,if_neg (by decide)] at emits
  obtain ⟨first,later,effect,rfl,rfl⟩ := emits
  rw [List.append_nil]
  exact (lawful.exit _ _ _).mp effect

/-- A run of the instrumented method reports the entry first. Then it is one of the method without reports, with
    those of its end. -/
theorem reported_run (lawful : Lawful M) (profiled : Profiled adapter) {progress : Progress Label}
    {visits : List (Visit Label (Insn Label Other))} (closed : M.Closed (adapter.reported progress visits))
    (uncaught : ∀ before added ahead after, adapter.bodyChunks progress visits =
      before ++ .closing added ahead (.source (.insn ATHROW)) :: after → ∀ exc,
        M.handlerOf (adapter.unreported progress visits).handlers (flat before) (flat after) exc = none)
    {state : State} {occurrences : List (Occurrence Out)} {ending : Ending Exc Result}
    (steps : M.Steps (codeOf (adapter.instrument progress visits))
      ((codeOf (adapter.instrument progress visits)).start state) occurrences (.ended ending)) :
    ∃ entry early own late last first more place op rest state',
      occurrences = .report (.entry adapter.methodId entry) :: (early ++ own ++ late ++ last) ∧ reportsOf late = [] ∧
      early ++ late = first ++ more ∧ Ends M (adapter.bodyChunks progress visits) place op ending own late ∧
      M.Steps (adapter.unreported progress visits) ((adapter.unreported progress visits).start state) first
        (.running place (.insn [] op :: rest) state') ∧
      M.Step (adapter.unreported progress visits) (.running place (.insn [] op :: rest) state') more (.ended ending) ∧
      adapter.frame.Closes M ending last := by
  have simple := profiled.toPlain
  rw [BasicBlockMethodAdapter.codeOf_instrument adapter simple] at steps
  obtain ⟨front,emitted,last,emits,run,closes,rfl⟩ := runs_of_weave (frame_fits lawful simple progress visits) closed steps
  unfold BasicBlockMethodAdapter.frame at emits
  rw [if_pos profiled.profile] at emits
  obtain ⟨entry,rfl⟩ := emits_entry lawful profiled emits
  obtain ⟨early,own,late,first,more,place,op,rest,state',rfl,total,ends,inside,final⟩ :=
    closing_runs (body_closings lawful simple uncaught) run
  refine ⟨entry,early,own,late,last,first,more,place,op,rest,state',by simp,?_,total,ends,inside,final,closes⟩
  cases ends with
  | @closed before added ahead _ after own late state'' ending split behind emits later =>
    have member : Chunk.closing added ahead op ∈ adapter.bodyChunks progress visits := by simp [split]
    exact closing_quiet lawful (bodyChunks_parts adapter simple visits progress _ member) later
  | raised split behind => rfl

/-- Where exceptions are handled, every run that ends reports its entry first and its exit last, and what
    comes between is a run of the method without reports. -/
theorem entry_and_exit (lawful : Lawful M) (profiled : Profiled adapter)
    (handled : adapter.instrumentExceptionHandlingCode = true) {progress : Progress Label}
    {visits : List (Visit Label (Insn Label Other))} (closed : M.Closed (adapter.reported progress visits))
    {state : State} {occurrences : List (Occurrence Out)} {ending : Ending Exc Result}
    (steps : M.Steps (codeOf (adapter.instrument progress visits))
      ((codeOf (adapter.instrument progress visits)).start state) occurrences (.ended ending)) :
    ∃ entry exit body, reportsOf occurrences =
        .entry adapter.methodId entry :: (reportsOf body ++ [.exit adapter.methodId exit]) ∧
      occurrences.filter Occurrence.isOutput = body.filter Occurrence.isOutput ∧
      M.Steps (adapter.unreported progress visits) ((adapter.unreported progress visits).start state) body
        (.ended ending) := by
  have parts := bodyChunks_parts adapter profiled.toPlain visits progress
  obtain ⟨entry,early,own,late,last,first,more,place,op,rest,state',rfl,quiet,total,ends,inside,final,closes⟩ :=
    reported_run lawful profiled closed (by
      intro before added ahead after split
      obtain ⟨-,-,opcode,same,returns | ⟨unhandled,-⟩⟩ := parts (.closing added ahead (.source (.insn ATHROW))) (by
        simp [split])
      · cases same
        cases returns
      · rw [handled] at unhandled
        cases unhandled) steps
  have body := inside.step final
  rw [← total] at body
  cases ends with
  | @closed before added ahead op after own late state'' ending split behind emits later =>
    obtain ⟨rfl,-,opcode,rfl,returns | ⟨unhandled,-⟩⟩ := parts (.closing added ahead op) (by simp [split])
    · -- it returns, so the handler around the body has nothing to do
      unfold BasicBlockMethodAdapter.exits at emits
      rw [if_pos profiled.profile] at emits
      obtain ⟨exit,rfl⟩ := emits_exit lawful profiled emits
      obtain ⟨none,others,outcome,rfl,-,effect,lands⟩ := Machine.step_insn.mp final
      obtain ⟨-,result,rfl⟩ := lawful.returns opcode returns _ _ _ effect
      cases lands
      cases closes
      refine ⟨entry,exit,early ++ late,?_,?_,body⟩
      · simp only [reportsOf,List.filterMap_cons,Occurrence.report?,List.filterMap_append,List.filterMap_nil,
          List.append_nil] at quiet ⊢
        simp [quiet]
      · simp [Occurrence.isOutput]
    · rw [handled] at unhandled
      cases unhandled
  | raised split behind =>
    have framed : adapter.frame.guard = some (adapter.exitGuard : Guard (NewLabel Label) (Written Label Other)) :=
      frame_guard.mpr ⟨handled,rfl⟩
    unfold Frame.Closes at closes
    rw [framed] at closes
    obtain ⟨state'',emits⟩ := closes
    obtain ⟨exit,rfl⟩ := emits_exit lawful profiled emits
    refine ⟨entry,exit,early ++ [],?_,?_,body⟩
    · simp [reportsOf,Occurrence.report?]
    · simp [Occurrence.isOutput]

theorem entry_and_exit_withdraw :
    ∃ entry exit body, reportsOf [(.report (.entry 110 5) : Occurrence Unit),.report (.exit 110 8)] =
        .entry 110 entry :: (reportsOf body ++ [.exit 110 exit]) ∧
      [(.report (.entry 110 5) : Occurrence Unit),.report (.exit 110 8)].filter Occurrence.isOutput =
        body.filter Occurrence.isOutput ∧
      idleJvm.Steps (withdraw.unreported {} throwing) ((withdraw.unreported {} throwing).start ()) body
        (.ended (.raised ())) :=
  entry_and_exit idleJvm_lawful withdraw_profiled rfl withdraw_closed withdraw_steps

/-- A method that is not profiled but whose exceptions are handled reports the exit of every exception that
    leaves it, and nothing else of its own: no entry belongs to that exit. -/
theorem exit_without_entry (lawful : Lawful M) (simple : adapter.Plain) (unprofiled : adapter.profile = false)
    (reports : adapter.reports = true) (measured : adapter.isMethodDescribedByPerformanceModel = false)
    (handled : adapter.instrumentExceptionHandlingCode = true) {progress : Progress Label}
    {visits : List (Visit Label (Insn Label Other))} (closed : M.Closed (adapter.reported progress visits))
    {state : State} {occurrences : List (Occurrence Out)} {ending : Ending Exc Result}
    (steps : M.Steps (codeOf (adapter.instrument progress visits))
      ((codeOf (adapter.instrument progress visits)).start state) occurrences (.ended ending)) :
    ∃ body, M.Steps (adapter.unreported progress visits) ((adapter.unreported progress visits).start state) body
        (.ended ending) ∧
      ((∃ result, ending = .returned result) ∧ occurrences = body ∨
        (∃ exc, ending = .raised exc) ∧
          ∃ clocks, occurrences = body ++ [.report (.exit adapter.methodId clocks)]) := by
  have parts := bodyChunks_parts adapter simple visits progress
  rw [BasicBlockMethodAdapter.codeOf_instrument adapter simple] at steps
  obtain ⟨front,emitted,last,emits,run,closes,rfl⟩ := runs_of_weave (frame_fits lawful simple progress visits) closed steps
  unfold BasicBlockMethodAdapter.frame at emits
  rw [if_neg (by simp [unprofiled])] at emits
  cases emits
  -- no report is added in front of an instruction
  have bare : (adapter.reported progress visits).bare = adapter.reported progress visits := by
    unfold Body.bare BasicBlockMethodAdapter.reported
    congr 1
    conv_rhs => rw [← List.map_id (flat (adapter.bodyChunks progress visits))]
    apply List.map_congr_left
    intro item member
    cases item with
    | label name => rfl
    | insn added op =>
      have none : added = [] := by
        rcases mem_flat member with ⟨-,rfl⟩ | ⟨added',ahead,final,closing,-,rfl | rfl⟩
        · rfl
        · rfl
        · obtain ⟨rfl,-⟩ := parts _ closing
          unfold BasicBlockMethodAdapter.exits
          rw [if_neg (by simp [unprofiled])]
      rw [none]
      rfl
  have run' : M.Steps (adapter.unreported progress visits) ((adapter.unreported progress visits).start state) emitted
      (.ended ending) := by
    show M.Steps (adapter.reported progress visits).bare _ _ _
    rw [bare]
    have start : (adapter.unreported progress visits).start state =
        ((adapter.reported progress visits).start state : Config _ _ State Exc Result) := by
      rw [← bare]
      rfl
    rw [start]
    exact run
  refine ⟨emitted,run',?_⟩
  cases ending with
  | returned result =>
    cases closes
    exact .inl ⟨⟨result,rfl⟩,by simp⟩
  | raised exc =>
    have framed : adapter.frame.guard = some (adapter.exitGuard : Guard (NewLabel Label) (Written Label Other)) :=
      frame_guard.mpr ⟨handled,rfl⟩
    unfold Frame.Closes at closes
    rw [framed] at closes
    obtain ⟨state',emits⟩ := closes
    have exits : adapter.exitGuard.handling =
        [(.methodInstrument adapter.methodId "_beforeMethodExit" : Written Label Other)] := by
      unfold BasicBlockMethodAdapter.exitGuard BasicBlockMethodAdapter.onMethodExitInstrumentation
      rw [reports,measured]
      rfl
    rw [exits] at emits
    obtain ⟨first,later,effect,rfl,rfl⟩ := emits
    obtain ⟨clocks,rfl⟩ := (lawful.exit _ _ _).mp effect
    exact .inr ⟨⟨exc,rfl⟩,clocks,by simp⟩

/-- A method that is not profiled, but whose exceptions are handled. -/
def audit : BasicBlockMethodAdapter :=
  (BasicBlockMethodAdapter.new (-1) false 0 "Account" "audit" "()V" []
    { instrumentExceptionHandlingCodeEverywhere := true } none).1

theorem exit_without_entry_audit :
    ∃ body, idleJvm.Steps (audit.unreported {} throwing) ((audit.unreported {} throwing).start ()) body
        (.ended (.raised ())) ∧
      ((∃ result, (Ending.raised () : Ending Unit Unit) = .returned result) ∧
          [.report (.exit (-1) 8)] = body ∨
        (∃ exc, (Ending.raised () : Ending Unit Unit) = .raised exc) ∧
          ∃ clocks, [.report (.exit (-1) 8)] = body ++ [.report (.exit (-1) clocks)]) := by
  have closed : idleJvm.Closed (audit.reported {} throwing) := throwing_closed rfl
  have written : codeOf (audit.instrument {} throwing) =
      { items := [.label .startExceptionCatchingBlockLabel,.insn [] (.source (.insn ATHROW)),
          .label .endExceptionCatchingBlockLabel,.insn [] (.methodInstrument (-1) "_beforeMethodExit"),
          .insn [] (.source (.insn ATHROW))]
        handlers := [{ start := .startExceptionCatchingBlockLabel,stop := .endExceptionCatchingBlockLabel
                       target := .endExceptionCatchingBlockLabel,kind := none }] } := rfl
  have steps : idleJvm.Steps (codeOf (audit.instrument {} throwing)) ((codeOf (audit.instrument {} throwing)).start ())
      [.report (.exit (-1) 8)] (.ended (.raised ())) := by
    rw [written]
    refine .head (.label _) (.head (.caught (Machine.emits_none _) (idleJvm_athrow ()) rfl rfl) ?_)
    refine .head (.label _) (.head (.next (Machine.emits_none _) (idleJvm_exit (-1) 8 ())) ?_)
    exact .single (.raised (Machine.emits_none _) (idleJvm_athrow ()) rfl)
  exact exit_without_entry idleJvm_lawful ⟨by decide,by decide⟩ rfl rfl rfl rfl closed steps

end Laws

end Vexjine.MethodReports
