import Vexjine.TryCatchDepths

/-!
# The reports of a program

In a program of instrumented methods that call each other, each method handles
exceptions or is not reported at all. Then the reports of every invocation are
those of a tree of calls, with one call for every invocation of a reported method,
however deep the calls are nested and whichever exceptions leave them. The
profiler charges the thread accordingly.
-/

namespace Vexjine.ReportedCalls
open Vexjine.InstructionLists Vexjine.BasicBlockAdapter Vexjine.MethodReports Vexjine.MethodEvents Vexjine.CallTimes
open BasicBlockMethodAdapter (notifier)

variable {Label Other Out State Exc Result Name : Type}

/-! ## Trees of calls -/

/-- Calls one after the others. -/
def append : Calls → Calls → Calls
  | .none, later => later
  | .call methodId entry callees exit rest, later => .call methodId entry callees exit (append rest later)

theorem events_append (first second : Calls) : (append first second).events = first.events ++ second.events := by
  induction first with
  | none => rfl
  | call methodId entry callees exit rest _ ih => simp [append,Calls.events,ih]

/-- The reports are those of finished calls. -/
def Balanced (occurrences : List (Occurrence Out)) : Prop := ∃ calls : Calls, reportsOf occurrences = calls.events

theorem balanced_nil : Balanced ([] : List (Occurrence Out)) := ⟨.none,rfl⟩

theorem balanced_append (first second : List (Occurrence Out)) (left : Balanced first) (right : Balanced second) :
    Balanced (first ++ second) := by
  obtain ⟨early,first_eq⟩ := left
  obtain ⟨late,second_eq⟩ := right
  exact ⟨append early late,by rw [reportsOf_append,first_eq,second_eq,events_append]⟩

/-! ## Programs of instrumented methods -/

/-- A method with the adapter that has visited it. -/
structure Method (Label Other : Type) where
  adapter : BasicBlockMethodAdapter
  point : Int
  visits : List (Visit Label (Insn Label Other))

namespace Method
variable [DecidableEq Label] (method : Method Label Other)

def code : Body (NewLabel Label) (Written Label Other) String :=
  codeOf (method.adapter.instrument { invocationPointId := method.point } method.visits)

/-- The body with the reports apart. -/
def apart : Body (NewLabel Label) (Written Label Other) String :=
  method.adapter.reported { invocationPointId := method.point } method.visits

/-- The method is profiled, and its exceptions are handled. -/
def Handled : Prop := Profiled method.adapter ∧ method.adapter.instrumentExceptionHandlingCode = true

/-- The method is not profiled, nor are its exceptions handled. -/
structure Unprofiled : Prop extends method.adapter.Plain where
  profile : method.adapter.profile = false
  unhandled : method.adapter.instrumentExceptionHandlingCode = false

end Method

abbrev JvmProgram (Label Other Out State Exc Result Name : Type) :=
  Program (NewLabel Label) (Written Label Other) String (Occurrence Out) State Exc Result Name

/-- The calls of a program are made by instructions of its methods other than those of the release of a monitor, and
    the other instructions of the methods report nothing. -/
structure Honest (P : JvmProgram Label Other Out State Exc Result Name) : Prop where
  lawful : Lawful P.machine
  calls : ∀ op state name entry, P.calls op state name entry →
    ¬OfRelease op ∧ ∃ opcode owner called desc, op = .source (.methodInsn opcode owner called desc)
  quiet : ∀ insn state occurrences outcome, P.machine.effect (.source insn) state occurrences outcome →
    reportsOf occurrences = []

section Program
variable [DecidableEq Label] {P : JvmProgram Label Other Out State Exc Result Name}

/-- The laws of the instructions hold at every depth of calls. -/
theorem lawful_machineAt (honest : Honest P) (depth : ℕ) : Lawful (P.machineAt depth) := by
  have lawful := honest.lawful
  have instrument : ∀ methodId callback state name entry,
      ¬P.calls (.methodInstrument methodId callback) state name entry := by
    intro methodId callback state name entry call
    obtain ⟨-,_,_,_,_,same⟩ := honest.calls _ _ _ _ call
    cases same
  have insn : ∀ opcode state name entry, ¬P.calls (.source (.insn opcode)) state name entry := by
    intro opcode state name entry call
    obtain ⟨-,_,_,_,_,same⟩ := honest.calls _ _ _ _ call
    cases same
  have release : ∀ op, OfRelease op → ∀ state name entry, ¬P.calls op state name entry :=
    fun op inside state name entry call => (honest.calls _ _ _ _ call).1 inside
  refine ⟨?_,?_,?_,?_,?_,?_,?_,?_,?_,?_⟩
  · intro methodId callback state occurrences outcome effect
    exact lawful.instrument _ _ _ _ _ ((P.effect_basic (instrument _ _) depth _ _ _).mp effect)
  · intro methodId callback
    have emits : ∀ state occurrences, (P.machineAt depth).Emits state [.methodInstrument methodId callback] occurrences ↔
        P.machine.Emits state [.methodInstrument methodId callback] occurrences := by
      intro state occurrences
      simp only [Machine.Emits,P.effect_basic (instrument methodId callback) depth]
    obtain ⟨total,hidden⟩ := lawful.hides methodId callback
    exact ⟨fun state => (total state).imp fun occurrences => (emits state occurrences).mpr,
      fun state occurrences emitted => hidden state occurrences ((emits state occurrences).mp emitted)⟩
  · intro methodId state occurrences
    rw [P.effect_basic (instrument _ _) depth]
    exact lawful.entry _ _ _
  · intro methodId state occurrences
    rw [P.effect_basic (instrument _ _) depth]
    exact lawful.exit _ _ _
  · intro opcode returns state occurrences outcome effect
    exact lawful.returns opcode returns _ _ _ ((P.effect_basic (insn opcode) depth _ _ _).mp effect)
  · intro op state occurrences result effect
    cases depth with
    | zero => exact lawful.finishes _ _ _ _ effect
    | succ depth =>
      rcases (P.effect_succ depth _ _ _ _).mp effect with basic | ⟨name,entry,ending,-,-,outcome⟩
      · exact lawful.finishes _ _ _ _ basic
      · cases ending <;> cases outcome
  · intro state occurrences outcome effect
    exact lawful.athrow _ _ _ ((P.effect_basic (insn ATHROW) depth _ _ _).mp effect)
  · intro state exc occurrences outcome
    rw [P.effect_basic (insn ATHROW) depth,P.caught_machineAt]
    exact lawful.rethrow _ _ _ _
  · intro insn state occurrences label later effect
    cases depth with
    | zero => exact lawful.jumps _ _ _ _ _ effect
    | succ depth =>
      rcases (P.effect_succ depth _ _ _ _).mp effect with basic | ⟨name,entry,ending,-,-,outcome⟩
      · exact lawful.jumps _ _ _ _ _ basic
      · cases ending <;> cases outcome
  · intro op inside state occurrences outcome effect
    exact lawful.release op inside _ _ _ ((P.effect_basic (release op inside) depth _ _ _).mp effect)

/-- What is reported of a method's invocation. -/
def Reported (method : Method Label Other) (occurrences : List (Occurrence Out)) : Prop :=
  if method.adapter.profile = true then
    ∃ entry callees exit,
      reportsOf occurrences = (Calls.call method.adapter.methodId entry callees exit .none).events
  else Balanced occurrences

omit [DecidableEq Label] in
theorem Reported.balanced {method : Method Label Other} {occurrences : List (Occurrence Out)}
    (reported : Reported method occurrences) : Balanced occurrences := by
  unfold Reported at reported
  split at reported
  · obtain ⟨entry,callees,exit,same⟩ := reported
    exact ⟨_,same⟩
  · exact reported

/-- Every instruction of a body with the reports apart is one of the visited body, or a call in its place. -/
theorem apart_source {method : Method Label Other} (simple : method.adapter.Plain)
    {added : List (Written Label Other)} {op : Written Label Other} (member : Item.insn added op ∈ method.apart.items) :
    ∃ insn, op = .source insn := by
  rcases mem_flat member with ⟨listed,-⟩ | ⟨added',ahead,last,listed,within,-⟩
  · obtain ⟨insn,rfl,-⟩ := bodyChunks_parts method.adapter simple _ _ _ listed
    exact ⟨insn,rfl⟩
  · obtain ⟨-,rfl,opcode,rfl,-⟩ := bodyChunks_parts method.adapter simple _ _ _ listed
    rcases List.mem_append.mp within with release | last
    · rcases releaseMonitor_release op release with ⟨name,rfl⟩ | ⟨var,rfl⟩ | rfl | rfl
      · exact ⟨_,rfl⟩
      · exact ⟨_,rfl⟩
      · exact ⟨_,rfl⟩
      · exact ⟨_,rfl⟩
    · rw [List.mem_singleton] at last
      exact ⟨_,last⟩

/-- One method, with calls that are reported as calls. -/
theorem reported_of_calls {depth : ℕ} (honest : Honest P) {method : Method Label Other}
    (kind : method.Handled ∨ method.Unprofiled) (closed : (P.machineAt depth).Closed method.apart)
    (calls : ∀ insn state occurrences outcome, (P.machineAt depth).effect (.source insn) state occurrences outcome →
      Balanced occurrences) {state : State} {occurrences : List (Occurrence Out)} {ending : Ending Exc Result}
    (steps : (P.machineAt depth).Steps method.code (method.code.start state) occurrences (.ended ending)) :
    Reported method occurrences := by
  have lawful := lawful_machineAt honest depth
  rcases kind with ⟨profiled,handled⟩ | unprofiled
  · obtain ⟨entry,exit,body,reports,-,run⟩ := entry_and_exit lawful profiled handled closed steps
    have inside : Balanced body := by
      refine run.events_of balanced_nil balanced_append ?_ ?_
      · intro added op member
        obtain ⟨item,-,same⟩ := List.mem_map.mp member
        cases item <;> cases same
        rfl
      · intro added op member state occurrences outcome effect
        obtain ⟨item,listed,same⟩ := List.mem_map.mp member
        cases item with
        | label name => cases same
        | insn added' op' =>
          cases same
          obtain ⟨insn,rfl⟩ := apart_source profiled.toPlain listed
          exact calls _ _ _ _ effect
    obtain ⟨callees,same⟩ := inside
    rw [Reported,if_pos profiled.profile]
    exact ⟨entry,callees,exit,by rw [reports,same]; rfl⟩
  · have simple := unprofiled.toPlain
    unfold Method.code at steps
    rw [BasicBlockMethodAdapter.codeOf_instrument _ simple] at steps
    obtain ⟨front,emitted,last,emits,run,closes,rfl⟩ := runs_of_weave (frame_fits lawful simple _ _) closed steps
    unfold BasicBlockMethodAdapter.frame at emits
    rw [if_neg (by simp [unprofiled.profile])] at emits
    cases emits
    have nothing : last = [] := by
      cases ending with
      | returned result => exact closes
      | raised exc =>
        unfold Frame.Closes BasicBlockMethodAdapter.frame at closes
        simpa [unprofiled.unhandled] using closes
    rw [Reported,if_neg (by simp [unprofiled.profile]),nothing,List.nil_append,List.append_nil]
    refine run.events_of balanced_nil balanced_append ?_ ?_
    · intro added op member
      rcases mem_flat member with ⟨-,rfl⟩ | ⟨added',ahead,final,closing,-,rfl | rfl⟩
      · rfl
      · rfl
      · obtain ⟨rfl,-⟩ := bodyChunks_parts _ simple _ _ _ closing
        unfold BasicBlockMethodAdapter.exits
        rw [if_neg (by simp [unprofiled.profile])]
    · intro added op member state occurrences outcome effect
      obtain ⟨insn,rfl⟩ := apart_source simple member
      exact calls _ _ _ _ effect

variable (method : Name → Method Label Other)

/-- Every invocation is reported as a tree of calls. -/
theorem invocation_reported (honest : Honest P) (bodies : ∀ name, P.code name = (method name).code)
    (kind : ∀ name, (method name).Handled ∨ (method name).Unprofiled)
    (closed : ∀ depth name, (P.machineAt depth).Closed (method name).apart) (depth : ℕ) {name : Name} {state : State}
    {occurrences : List (Occurrence Out)} {ending : Ending Exc Result}
    (invoked : P.Invokes depth name state occurrences ending) : Reported (method name) occurrences := by
  induction depth generalizing name state occurrences ending with
  | zero =>
    rw [Program.Invokes,bodies] at invoked
    refine reported_of_calls honest (kind name) (closed 0 name) ?_ invoked
    intro insn state occurrences outcome effect
    exact ⟨.none,honest.quiet _ _ _ _ effect⟩
  | succ depth ih =>
    rw [Program.Invokes,bodies] at invoked
    refine reported_of_calls honest (kind name) (closed _ name) ?_ invoked
    intro insn state occurrences outcome effect
    rcases (P.effect_succ depth _ _ _ _).mp effect with basic | ⟨callee,entry,ending,-,called,-⟩
    · exact ⟨.none,honest.quiet _ _ _ _ basic⟩
    · exact (ih called).balanced

/-- The profiler charges the thread for an invocation of a reported method with the charges of its callees and one
    of its own: from its entry to its exit, and without the time of the callees. -/
theorem invocation_charged (honest : Honest P) (bodies : ∀ name, P.code name = (method name).code)
    (kind : ∀ name, (method name).Handled ∨ (method name).Unprofiled)
    (closed : ∀ depth name, (P.machineAt depth).Closed (method name).apart) {depth : ℕ} {name : Name}
    (profiled : (method name).adapter.profile = true) {state : State} {occurrences : List (Occurrence Out)}
    {ending : Ending Exc Result} (invoked : P.Invokes depth name state occurrences ending) {thread : MethodEvents.VexThreadState}
    (wf : MethodLogs.WellFormed thread.methodLog) :
    ∃ entry callees exit,
      reportsOf occurrences =
        (Calls.call (method name).adapter.methodId entry callees exit .none).events ∧
      charged thread (reportsOf occurrences) = callees.charges ++
        [{ methodId := (method name).adapter.methodId,inclusive := exit - entry
           exclusive := exit - entry - callees.inclusive }] ∧
      (after thread (reportsOf occurrences)).methodLog.frames =
        MethodLogs.chargeCaller (exit - entry) thread.methodLog.frames := by
  have reported := invocation_reported method honest bodies kind closed depth invoked
  rw [Reported,if_pos profiled] at reported
  obtain ⟨entry,callees,exit,same⟩ := reported
  have accounts := accounted (Calls.call (method name).adapter.methodId entry callees exit .none) wf
  refine ⟨entry,callees,exit,same,?_,?_⟩
  · rw [same,accounts.charges]
    rfl
  · rw [same,accounts.frames]
    simp [Calls.inclusive]

end Program

/-! ## A call that throws -/

inductive BankMethod
  | settle
  | withdraw

/-- A profiled method that calls the one that throws. -/
def settle : BasicBlockMethodAdapter :=
  (BasicBlockMethodAdapter.new 112 true 0 "Bank" "settle" "()V" ["Overdrawn"] {} none).1

def bankMethod : BankMethod → Method ℕ Empty
  | .settle => { adapter := settle,point := 0
                 visits := [.insn (.methodInsn INVOKEVIRTUAL "Account" "withdraw" "(I)V"),.insn (.insn RETURN)] }
  | .withdraw => { adapter := withdraw,point := 0,visits := throwing }

def bank : JvmProgram ℕ Empty Unit Unit Unit Unit BankMethod where
  machine := idleJvm
  calls op _ name _ := op = .source (.methodInsn INVOKEVIRTUAL "Account" "withdraw" "(I)V") ∧ name = .withdraw
  resume _ _ := ()
  code name := (bankMethod name).code

theorem bank_honest : Honest bank where
  lawful := idleJvm_lawful
  calls := by
    rintro op state name entry ⟨rfl,rfl⟩
    refine ⟨?_,_,_,_,_,rfl⟩
    rintro (⟨name,same⟩ | ⟨var,same⟩ | same | same) <;> cases same
  quiet := by
    intro insn state occurrences outcome effect
    cases insn with
    | methodInsn opcode owner name desc =>
      rw [effect.2.1]
      split <;> rfl
    | _ => exact effect.1 ▸ rfl

theorem bank_kind (name : BankMethod) : (bankMethod name).Handled ∨ (bankMethod name).Unprofiled := by
  cases name with
  | settle => exact .inl ⟨⟨⟨by decide,by decide⟩,by decide,by decide,by decide⟩,by decide⟩
  | withdraw => exact .inl ⟨withdraw_profiled,rfl⟩

theorem bank_basic (depth : ℕ) (opcode : Nat) (state : Unit) (occurrences : List (Occurrence Unit))
    (outcome : Outcome (NewLabel ℕ) Unit Unit Unit) :
    (bank.machineAt depth).effect (.source (.insn opcode)) state occurrences outcome ↔
      idleJvm.effect (.source (.insn opcode)) state occurrences outcome := by
  refine bank.effect_basic ?_ depth _ _ _
  rintro state name entry ⟨same,-⟩
  cases same

theorem bank_closed (depth : ℕ) (name : BankMethod) : (bank.machineAt depth).Closed (bankMethod name).apart := by
  cases name with
  | settle =>
    have last : (bankMethod .settle).apart.items =
        [.insn [] (.source (.methodInsn INVOKEVIRTUAL "Account" "withdraw" "(I)V"))] ++
          [.insn [.methodInstrument 112 "_beforeMethodExit"] (.source (.insn RETURN))] := rfl
    refine Machine.closed_of_last last ?_
    intro state occurrences later effect
    cases ((bank_basic depth _ _ _ _).mp effect).2
  | withdraw =>
    have last : (bankMethod .withdraw).apart.items = [] ++ [.insn [] (.source (.insn ATHROW))] := rfl
    refine Machine.closed_of_last last ?_
    intro state occurrences later effect
    cases ((bank_basic depth _ _ _ _).mp effect).2

/-- The exception leaves both methods, and both exits are reported. -/
theorem bank_invokes : bank.Invokes 1 .settle ()
    [.report (.entry 112 2),.report (.entry 110 5),.report (.exit 110 8),.report (.exit 112 9)] (.raised ()) := by
  have written : bank.code .settle =
      { items := [.label .startExceptionCatchingBlockLabel,.insn [] (.methodInstrument 112 "_afterMethodEntry"),
          .insn [] (.source (.methodInsn INVOKEVIRTUAL "Account" "withdraw" "(I)V")),
          .insn [] (.methodInstrument 112 "_beforeMethodExit"),.insn [] (.source (.insn RETURN)),
          .label .endExceptionCatchingBlockLabel,.insn [] (.methodInstrument 112 "_beforeMethodExit"),
          .insn [] (.source (.insn ATHROW))]
        handlers := [{ start := .startExceptionCatchingBlockLabel,stop := .endExceptionCatchingBlockLabel
                       target := .endExceptionCatchingBlockLabel,kind := none }] } := rfl
  have call : (bank.machineAt 1).effect (.source (.methodInsn INVOKEVIRTUAL "Account" "withdraw" "(I)V")) ()
      [.report (.entry 110 5),.report (.exit 110 8)] (.raise ()) :=
    .inr ⟨.withdraw,(),.raised (),⟨rfl,rfl⟩,withdraw_steps,rfl⟩
  have entered : (bank.machineAt 1).effect (.methodInstrument 112 "_afterMethodEntry") () [.report (.entry 112 2)]
      (.next ()) := .inl (idleJvm_entry 112 2 ())
  have left : (bank.machineAt 1).effect (.methodInstrument 112 "_beforeMethodExit") () [.report (.exit 112 9)]
      (.next ()) := .inl (idleJvm_exit 112 9 ())
  have thrown : (bank.machineAt 1).effect (.source (.insn ATHROW)) () [] (.raise ()) := .inl (idleJvm_athrow ())
  rw [Program.Invokes,written]
  refine .head (.label _) (.head (.next (Machine.emits_none _) entered) ?_)
  refine .head (.caught (Machine.emits_none _) call rfl rfl) ?_
  refine .head (.label _) (.head (.next (Machine.emits_none _) left) ?_)
  exact .single (.raised (Machine.emits_none _) thrown rfl)

theorem invocation_reported_bank : Reported (bankMethod .settle)
    ([.report (.entry 112 2),.report (.entry 110 5),.report (.exit 110 8),.report (.exit 112 9)] :
      List (Occurrence Unit)) :=
  invocation_reported bankMethod bank_honest (fun _ => rfl) bank_kind bank_closed 1 bank_invokes

theorem invocation_charged_bank :
    ∃ entry callees exit,
      reportsOf ([.report (.entry 112 2),.report (.entry 110 5),.report (.exit 110 8),.report (.exit 112 9)] :
        List (Occurrence Unit)) = (Calls.call 112 entry callees exit .none).events ∧
      charged (initial false) (reportsOf ([.report (.entry 112 2),.report (.entry 110 5),.report (.exit 110 8),
        .report (.exit 112 9)] : List (Occurrence Unit))) = callees.charges ++
          [{ methodId := 112,inclusive := exit - entry,exclusive := exit - entry - callees.inclusive }] ∧
      (after (initial false) (reportsOf ([.report (.entry 112 2),.report (.entry 110 5),.report (.exit 110 8),
        .report (.exit 112 9)] : List (Occurrence Unit)))).methodLog.frames =
          MethodLogs.chargeCaller (exit - entry) (initial false).methodLog.frames :=
  invocation_charged bankMethod bank_honest (fun _ => rfl) bank_kind bank_closed rfl bank_invokes
    MethodLogs.wellFormed_init

end Vexjine.ReportedCalls
