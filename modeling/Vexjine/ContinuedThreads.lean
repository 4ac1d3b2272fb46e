import Vexjine.ManagedThreads

/-!
# Threads that the scheduler continues

A thread that `continueThread` pops from the queue of runnable threads is resumed, has its
I/O interrupted or is pushed back; where it is left out of the queue, another party must be
bound to push it back. That holds of every pop but those of threads that wait without a
positive timeout, or learn about I/O in scaled time, in calls whose end does not push them.
-/

namespace Vexjine.ContinuedThreads
open Vexjine.Runs Vexjine.ManagedThreads
open Vexjine.QueueMembership (IoProtocol)
set_option linter.unusedSimpArgs false

/-! ## What must hold -/

/-- The thread is in the queue or runs. -/
def Back (system : System) (t : Int64) : Prop :=
  t ∈ system.runnableThreads ∨ ∃ thread, system.threadRegistry t = some thread ∧ thread.state.currentState = .running

/-- The events that end what the thread is in, other than those of a scheduler. A thread that sleeps, that
    its manager has suspended or that a scheduler simulates awaits nothing else. -/
def awaits (thread : ManagedThread) : Move → Bool
  | .enter => decide (thread.call = .outside) && !thread.blocked
  | .interrupt _ => match thread.call with
    | .replacedWaiting _ | .replacedTimedWaiting _ => true
    | _ => false
  | .handOver => decide (thread.call = .requestingLock)
  | .wrappedWaitingEnd _ => decide (thread.call = .wrappedWaiting)
  | .wrappedTimedWaitingEnd => decide (thread.call = .wrappedTimedWaiting)
  | .parked _ => decide (thread.call = .parking false) || decide (thread.call = .parking true)
  | .ioEnd _ => decide (thread.call = .io)
  | .systemCallEnd => decide (thread.call = .systemCall) && !thread.blocked
  | .resumeCustomer => decide (thread.call = .model .queueing)
  | .modelExit _ => decide (thread.call = .model .finished)
  | _ => false

section Definitions
variable (kind : ManagerKind) (protocol : IoProtocol) (t : Int64)

/-- The runs in which the thread is not back yet. -/
def StaysAway : System → System → Prop :=
  Relation.ReflTransGen fun system next => (∃ event, system.step kind protocol event = some next) ∧ ¬ Back next t

/-- The thread awaits an event of another party, and whenever this happens it brings the thread back. -/
structure BoundBack (system : System) (thread : ManagedThread) : Prop where
  awaiting : ∃ move, awaits thread move = true
  brought : ∀ later, StaysAway kind protocol t system later → ∀ move next, awaits thread move = true →
    later.step kind protocol ⟨t,move⟩ = some next → Back next t

/-- Of a popped thread, with its state before. -/
def Accounted (before : ManagedThread) (next : System) : Prop :=
  ∃ after, next.threadRegistry t = some after ∧
    ((after.blocked = true ∧ after.state.awaken = true) ∨ before.alarms < after.alarms ∨ t ∈ next.runnableThreads ∨
      BoundBack kind protocol t next after)

end Definitions

/-- Suspended threads, those in I/O, waiting ones and those in a model. -/
def isHandled (state : VexThreadState) : Bool :=
  state.isSuspended || state.inIo || state.isWaiting || state.isSimulatingModel ||
    state.isWaitingRealCodeToCompleteAfterModelSimulation

def KeepsPopped (kind : ManagerKind) (protocol : IoProtocol) (system : System) (event : Step) : Prop :=
  ∀ manager answers thread next, event.move = .continueThread manager answers →
    system.threadRegistry event.thread = some thread → isHandled thread.state = true →
    System.getNextIfEqualsElseReturnTop thread manager = .popped → system.step kind protocol event = some next →
      Accounted kind protocol event.thread thread next

/-! ## When it holds -/

/-- The end of the thread's call pushes the thread or lets it run. -/
def comesBack (kind : ManagerKind) (protocol : IoProtocol) (system : System) (t : Int64) (thread : ManagedThread) : Bool :=
  match thread.call with
  | .outside => !thread.blocked && System.pushesSuspended kind thread
  | .replacedWaiting _ | .replacedTimedWaiting _ | .requestingLock =>
    decide (thread.state.timeout = 0 ∨ thread.state.timeout = -2)
  | .wrappedWaiting => System.pushesSuspended kind thread
  | .parking permitted => !permitted && decide (thread.state.timeout ≤ 0) && System.pushesSuspended kind thread
  | .io => System.pushesSuspended kind thread && match protocol with
    | .lax => true
    | .normal =>
      decide (thread.state.currentState = .learningIo) && decide (thread.state.timeout = -1) && !thread.state.parked
  | .systemCall => !thread.blocked
  | .model .queueing => true
  | .model .finished => System.pushesSuspended kind thread && !decide (system.runs t thread)
  | .sleeping | .wrappedTimedWaiting | .model .simulating | .ended => false

/-- No branch of `continueThread` takes the thread. -/
def isLeftOut (state : VexThreadState) (timeScaled : Bool) : Bool :=
  (state.isWaiting && !state.isTimedWaiting) || (decide (state.currentState = .learningIo) && timeScaled)

def Covered (kind : ManagerKind) (protocol : IoProtocol) (system : System) (event : Step) : Prop :=
  match event.move,system.threadRegistry event.thread with
  | .continueThread _ _,some thread => isLeftOut thread.state thread.timeScaled = true →
      system.runnableThreads.count event.thread = 1 → comesBack kind protocol system event.thread thread = true
  | _,_ => True

instance (kind : ManagerKind) (protocol : IoProtocol) (system : System) (event : Step) :
    Decidable (Covered kind protocol system event) := by
  unfold Covered
  split
  · infer_instance
  · infer_instance

/-! ## The invariant -/

/-- Calls in which the thread executes code outside VEX, or code that is modelled. -/
def isExecuting : Call → Bool
  | .wrappedWaiting | .wrappedTimedWaiting | .parking false | .io | .model _ => true
  | _ => false

def isNative : Call → Bool
  | .wrappedWaiting | .wrappedTimedWaiting | .parking false | .io => true
  | _ => false

/-- The states that only I/O and models give. -/
def isOfCall : Code → Bool
  | .learningIo | .inModelWaiting | .inModel => true
  | _ => false

structure Sound (system : System) (t : Int64) (thread : ManagedThread) : Prop where
  awake : thread.state.awaken = true → thread.state.currentState = .suspended ∧ thread.blocked = true
  executing : isExecuting thread.call = true →
    thread.blocked = false ∧ thread.state.isRunning = false ∧ thread.state.awaken = false
  native : isNative thread.call = true → ¬ system.runs t thread
  learning : thread.state.currentState = .learningIo → thread.call = .io
  permitted : thread.call = .parking true → thread.state.parked = false ∧ thread.state.currentState ≠ .waiting
  queueing : thread.state.currentState = .inModelWaiting → thread.call = .model .queueing
  simulating : thread.state.currentState = .inModel → thread.call = .model .simulating

section Soundness
variable {kind : ManagerKind} {protocol : IoProtocol} {t : Int64} {thread current after : ManagedThread}
  {system next : System}

/-- A state that is not that of a call. -/
private theorem ne_of_plain {code : Code} (plain : isOfCall code = false) :
    code ≠ .learningIo ∧ code ≠ .inModelWaiting ∧ code ≠ .inModel := by
  cases code <;> simp_all [isOfCall]

private theorem plain_of_ne {code : Code} (learned : code ≠ .learningIo) (queued : code ≠ .inModelWaiting)
    (simulated : code ≠ .inModel) : isOfCall code = false := by
  cases code <;> simp_all [isOfCall]

/-- Calls that keep the thread in VEX. -/
private theorem sound_inside (inside : isExecuting after.call = false)
    (awake : after.state.awaken = true → after.state.currentState = .suspended ∧ after.blocked = true)
    (plain : isOfCall after.state.currentState = false)
    (permitted : after.call = .parking true → after.state.parked = false ∧ after.state.currentState ≠ .waiting) :
    Sound system t after := by
  obtain ⟨learned,queued,simulated⟩ := ne_of_plain plain
  refine ⟨awake,?_,?_,fun learning => absurd learning learned,permitted,fun queueing => absurd queueing queued,
    fun simulating => absurd simulating simulated⟩
  · simp [inside]
  · intro native
    cases call : after.call with
    | parking permitted => cases permitted <;> simp_all [isExecuting,isNative]
    | _ => simp_all [isExecuting,isNative]

private theorem sound_of_rest (rests : System.Suspends current after ∨ System.Runs current after)
    (inside : isExecuting after.call = false) (permitted : after.call = .parking true → current.state.parked = false) :
    Sound system t after := by
  rcases rests with suspends | runs
  · refine sound_inside inside (fun _ => ⟨suspends.state,suspends.blocked⟩) (by rw [suspends.state]; rfl) ?_
    intro parking
    exact ⟨suspends.parked ▸ permitted parking,by simp [suspends.state]⟩
  · refine sound_inside inside (by simp [runs.asleep]) (by rw [runs.state]; rfl) ?_
    intro parking
    exact ⟨runs.parked ▸ permitted parking,by simp [runs.state]⟩

/-- A call that has ended leaves nothing to keep but that only suspended threads are being awakened. -/
private theorem sound_outside (outside : after.call = .outside)
    (awake : after.state.awaken = true → after.state.currentState = .suspended ∧ after.blocked = true)
    (plain : isOfCall after.state.currentState = false) : Sound system t after :=
  sound_inside (by rw [outside]; rfl) awake plain (by simp [outside])

private theorem outside_eq (outside : thread.isOutside = true) :
    thread.blocked = false ∧ thread.state.isRunning = true ∧ thread.call = .outside := by
  simpa [ManagedThread.isOutside,ManagedThread.isFree,and_assoc] using outside

private theorem isIn_eq {call : Call} (inside : thread.isIn call = true) : thread.blocked = false ∧ thread.call = call := by
  simpa [ManagedThread.isIn] using inside

private theorem asleep_of_running (sound : Sound system t thread) (running : thread.state.isRunning = true) :
    thread.state.awaken = false := by
  cases awake : thread.state.awaken with
  | false => rfl
  | true => simp [VexThreadState.isRunning,(sound.awake awake).1] at running

/-- The move of a thread outside any call that suspends it or lets it run. -/
private theorem rest_sound (found : next.threadRegistry t = some after)
    (rests : ∃ last, next.threadRegistry t = some last ∧ (System.Suspends thread last ∨ System.Runs thread last))
    (outside : thread.call = .outside) : Sound next t after := by
  obtain ⟨last,there,rests⟩ := rests
  cases found.symm.trans there
  have call : after.call = .outside := by
    rcases rests with suspends | runs
    · exact suspends.call.trans outside
    · exact runs.call.trans outside
  exact sound_of_rest rests (by rw [call]; rfl) (by simp [call])

/-- The end of a call that the thread has executed. -/
private theorem return_sound {kind : ManagerKind} {suspends listed : Bool} (there : system.threadRegistry t = some current)
    (awake : current.state.awaken = true → current.state.currentState = .suspended ∧ current.blocked = true)
    (plain : system.runs t thread → isOfCall current.state.currentState = false)
    (found : ((system.suspendCurrentThread kind t thread suspends listed).setCall t .outside).threadRegistry t =
      some after) :
    Sound next t after := by
  obtain ⟨running,same⟩ | ⟨last,rested,rests⟩ := System.suspendCurrentThread_self kind thread suspends listed there
  · simp only [same,System.setCall_self,there,Option.map_some,Option.some.injEq] at found
    subst found
    exact sound_outside rfl awake (plain running)
  · simp only [System.setCall_self,rested,Option.map_some,Option.some.injEq] at found
    subst found
    rcases rests with suspended | runs
    · exact sound_outside rfl (fun _ => ⟨suspended.state,suspended.blocked⟩) (by rw [suspended.state]; rfl)
    · exact sound_outside rfl (by simp [runs.asleep]) (by rw [runs.state]; rfl)

/-- A native call has begun. -/
private theorem native_sound (blocked : after.blocked = false) (running : after.state.isRunning = false)
    (asleep : after.state.awaken = false) (apart : isNative after.call = true → ¬ next.runs t after)
    (learning : after.state.currentState = .learningIo → after.call = .io) (unpermitted : after.call ≠ .parking true)
    (queueing : after.state.currentState = .inModelWaiting → after.call = .model .queueing)
    (simulating : after.state.currentState = .inModel → after.call = .model .simulating) : Sound next t after :=
  ⟨by simp [asleep],fun _ => ⟨blocked,running,asleep⟩,apart,learning,fun parking => absurd parking unpermitted,queueing,
    simulating⟩

/-- What a running thread is not doing. -/
private theorem codes_of_running {state : VexThreadState} (running : state.isRunning = true) :
    state.currentState ≠ .waiting ∧ isOfCall state.currentState = false := by
  simp only [VexThreadState.isRunning,Bool.or_eq_true,decide_eq_true_eq] at running
  rcases running with code | code <;> simp [code,isOfCall]

private theorem apart_of_unset {cleared : System} (same : next.runningThread = cleared.runningThread)
    (ended : cleared.runningThread after.threadCurrentlyControllingManager ≠ some t) : ¬ next.runs t after := by
  unfold System.runs
  rw [same]
  exact ended

/-- The thread is being simulated. -/
private theorem model_sound {progress : Progress} (call : after.call = .model progress) (blocked : after.blocked = false)
    (asleep : after.state.awaken = false) (running : after.state.isRunning = false)
    (learned : after.state.currentState ≠ .learningIo)
    (queueing : after.state.currentState = .inModelWaiting → progress = .queueing)
    (simulating : after.state.currentState = .inModel → progress = .simulating) : Sound next t after :=
  native_sound blocked running asleep (by simp [call,isNative]) (fun learning => absurd learning learned) (by simp [call])
    (fun waits => by rw [call,queueing waits]) fun active => by rw [call,simulating active]

private theorem simulateModel_sound {simulation : System.Simulation} {progress : Progress}
    (found : system.threadRegistry t = some current) (call : current.call = .model progress)
    (blocked : current.blocked = false) (asleep : current.state.awaken = false) (running : current.state.isRunning = false)
    (learned : current.state.currentState ≠ .learningIo)
    (queueing : current.state.currentState = .inModelWaiting → progress = .queueing)
    (simulating : current.state.currentState = .inModel → progress = .simulating)
    (there : (system.simulateModel t thread simulation).threadRegistry t = some after) : Sound next t after := by
  cases simulation with
  | finished =>
    simp [System.simulateModel,found] at there
    subst there
    exact model_sound rfl blocked asleep rfl (by rintro ⟨⟩) (by rintro ⟨⟩) (by rintro ⟨⟩)
  | goesOn timeout =>
    have same : (system.simulateModel t thread (.goesOn timeout)).threadRegistry t =
        some { current with state := timeout.elim current.state current.state.setTimeout } := by
      simp only [System.simulateModel]
      split_ifs <;> simp [found]
    cases same.symm.trans there
    cases timeout with
    | none => exact model_sound call blocked asleep running learned queueing simulating
    | some timeout => exact model_sound call blocked asleep running learned queueing simulating
  | queues =>
    simp [System.simulateModel,found] at there
    subst there
    exact model_sound rfl blocked asleep rfl (by rintro ⟨⟩) (fun _ => rfl) (by rintro ⟨⟩)

private theorem wrappedStart_sound {call : Call} (native : isNative call = true)
    (found : system.threadRegistry t = some current)
    (same : thread.threadCurrentlyControllingManager = current.threadCurrentlyControllingManager)
    (blocked : current.blocked = false) (asleep : current.state.awaken = false)
    (there : (system.onWrappedWaitingStart t thread call).threadRegistry t = some after) :
    Sound (system.onWrappedWaitingStart t thread call) t after := by
  simp [System.onWrappedWaitingStart,found] at there
  subst there
  refine native_sound blocked rfl ?_ (fun _ => apart_of_unset rfl (System.unset_ends same)) ?_ ?_ ?_ ?_
  · exact asleep
  · exact nofun
  · rintro parking
    simp only at parking
    rw [parking] at native
    cases native
  · exact nofun
  · exact nofun

private theorem wrappedTimedStart_sound {call : Call} {objectId timeout : Int64} (native : isNative call = true)
    (found : system.threadRegistry t = some current)
    (same : thread.threadCurrentlyControllingManager = current.threadCurrentlyControllingManager)
    (blocked : current.blocked = false)
    (there : (system.onWrappedTimedWaitingStart kind t thread objectId timeout call).threadRegistry t = some after) :
    Sound (system.onWrappedTimedWaitingStart kind t thread objectId timeout call) t after := by
  simp [System.onWrappedTimedWaitingStart,found] at there
  subst there
  refine native_sound blocked rfl rfl
    (fun _ => apart_of_unset System.setTimedWaitingThread_running (System.unset_ends same)) ?_ ?_ ?_ ?_
  · exact nofun
  · rintro parking
    simp only at parking
    rw [parking] at native
    cases native
  · exact nofun
  · exact nofun

private theorem ioStart_sound (learning : Bool) (found : system.threadRegistry t = some thread)
    (blocked : thread.blocked = false) (asleep : thread.state.awaken = false)
    (there : (system.setIoThread t thread learning).threadRegistry t = some after) :
    Sound (system.setIoThread t thread learning) t after := by
  have same : (system.setIoThread t thread learning).runningThread =
      (system.unsetCurrentThreadFromRunningThread t thread).runningThread := by
    unfold System.setIoThread
    dsimp only
    split_ifs <;> rfl
  have started : (system.setIoThread t thread learning).threadRegistry t =
      some { thread with state := thread.state.setIo learning,call := .io } := by
    unfold System.setIoThread
    dsimp only
    split_ifs <;> simp [found]
  cases started.symm.trans there
  cases learning with
  | false | true =>
    exact native_sound blocked rfl asleep (fun _ => apart_of_unset same (System.unset_ends rfl)) (fun _ => rfl) nofun nofun
      nofun

private theorem wrappedEnd_sound {suspends : Bool} (sound : Sound system t thread)
    (found : system.threadRegistry t = some thread) (learned : thread.call ≠ .io)
    (served : thread.call ≠ .model .queueing ∧ thread.call ≠ .model .simulating)
    (there : (system.onWrappedWaitingEnd kind t thread suspends).threadRegistry t = some after) : Sound next t after := by
  have ended : (system.onState t fun _ =>
      ((thread.state.setTimeout (-1)).setAwakeningFromJoin false).setTimedOut true).threadRegistry t =
        some { thread with state := ((thread.state.setTimeout (-1)).setAwakeningFromJoin false).setTimedOut true } := by
    simp [found]
  have plain : isOfCall thread.state.currentState = false :=
    plain_of_ne (mt sound.learning learned) (mt sound.queueing served.1) (mt sound.simulating served.2)
  exact return_sound ended sound.awake (fun _ => plain) there

/-- An interrupt suspends the thread, and a park it was in is over. -/
private theorem interrupted_sound (sound : Sound system t thread) (call : after.call = thread.call)
    (blocked : after.blocked = thread.blocked)
    (manager : after.threadCurrentlyControllingManager = thread.threadCurrentlyControllingManager)
    (running : next.runningThread = system.runningThread) (suspended : after.state.currentState = .suspended)
    (asleep : after.state.awaken = false) (parked : after.state.parked = false) : Sound next t after := by
  refine ⟨by simp [asleep],?_,?_,by simp [suspended],fun _ => ⟨parked,by simp [suspended]⟩,by simp [suspended],
    by simp [suspended]⟩
  · intro executing
    exact ⟨blocked.trans (sound.executing (call ▸ executing)).1,by simp [VexThreadState.isRunning,suspended],asleep⟩
  · intro native
    unfold System.runs
    rw [running,manager]
    exact sound.native (call ▸ native)

private theorem inside_of_free (sound : Sound system t thread) (free : thread.isFree = true) :
    isExecuting thread.call = false := by
  cases executing : isExecuting thread.call with
  | false => rfl
  | true => simp [ManagedThread.isFree,(sound.executing executing).2.1] at free

/-- A thread that a manager has blocked executes nothing. -/
private theorem inside_of_blocked (sound : Sound system t thread) (blocked : thread.blocked = true) :
    isExecuting thread.call = false := by
  cases executing : isExecuting thread.call with
  | false => rfl
  | true => simp [(sound.executing executing).1] at blocked

private theorem returnFromBlock_sound {acquires : Bool} (found : system.threadRegistry t = some thread)
    (inside : isExecuting thread.call = false) (permitted : thread.call = .parking true → thread.state.parked = false)
    (there : (system.returnFromBlock kind t thread acquires).threadRegistry t = some after) : Sound next t after := by
  obtain ⟨last,ran,rests⟩ := System.setRunningThread_self kind thread found
  have call : last.call = thread.call := by
    rcases rests with suspends | runs
    · exact suspends.call
    · exact runs.call
  have rested : Sound next t last := sound_of_rest rests (call ▸ inside) (call ▸ permitted)
  simp only [System.returnFromBlock,ran] at there
  split_ifs at there with blocked acquired
  · cases ran.symm.trans there
    exact rested
  all_goals
    obtain suspends | runs := rests
    · exact absurd suspends.blocked blocked
    have codes : last.state.awaken = false ∧ last.state.currentState = .running := ⟨runs.asleep,runs.state⟩
    cases called : last.call with
    | replacedWaiting updateLockRegistry | replacedTimedWaiting updateLockRegistry =>
      cases updateLockRegistry with
      | false | true =>
        simp [called,ran,System.onReplacedWaiting] at there
        subst there
        refine sound_inside rfl ?_ ?_ (by rintro ⟨⟩)
        all_goals simp [codes,isOfCall,VexThreadState.setTimeout,VexThreadState.blockHereUntilSignaled,
          VexThreadState.setAwaken]
    | sleeping | requestingLock =>
      simp [called,ran] at there
      subst there
      exact sound_outside rfl (by simp [codes]) (by simp [codes,isOfCall])
    | systemCall =>
      simp [called,ran] at there
      subst there
      exact sound_inside (by simp [called,isExecuting]) (by simp [codes,VexThreadState.setNewState]) rfl
        (by simp [called])
    | outside | wrappedWaiting | wrappedTimedWaiting | parking _ | io | model _ | ended =>
      simp only [called,ran,Option.some.injEq] at there
      subst there
      exact rested

private theorem resumed_sound {manager : Nat} (sound : Sound system t thread) (blocked : thread.blocked = true)
    (suspended : thread.state.currentState = .suspended) : Sound next t (System.resumed manager thread) := by
  have inside := inside_of_blocked sound blocked
  refine sound_inside inside (fun _ => ⟨suspended,blocked⟩) ?_ fun call => ⟨(sound.permitted call).1,?_⟩
  all_goals simp [System.resumed,VexThreadState.onThreadResumeByManager,VexThreadState.setAwaken,suspended,isOfCall]

/-- A simulated thread has a model whose progress its state tells. -/
private theorem model_of_simulating (sound : Sound system t thread) (simulating : thread.state.isSimulatingModel = true) :
    ∃ progress, thread.call = .model progress ∧ (thread.state.currentState = .inModelWaiting → progress = .queueing) ∧
      (thread.state.currentState = .inModel → progress = .simulating) := by
  simp only [VexThreadState.isSimulatingModel,VexThreadState.isActiveInModel,Bool.or_eq_true,decide_eq_true_eq] at simulating
  rcases simulating with active | waits
  · exact ⟨_,sound.simulating active,by simp [active],fun _ => rfl⟩
  · exact ⟨_,sound.queueing waits,fun _ => rfl,by simp [waits]⟩

private theorem continue_sound {manager : Nat} {answers : System.Answers} (sound : Sound system t thread)
    (found : system.threadRegistry t = some thread)
    (continued : system.continuePoppedThread kind t thread manager answers = some next)
    (there : next.threadRegistry t = some after) : Sound next t after := by
  have kept (same : next.threadRegistry t = some thread) (running : next.runningThread = system.runningThread) :
      Sound next t after := by
    cases same.symm.trans there
    refine ⟨sound.awake,sound.executing,fun native => ?_,sound.learning,sound.permitted,sound.queueing,sound.simulating⟩
    unfold System.runs
    rw [running]
    exact sound.native native
  obtain rfl | ⟨suspended,blocked,rfl⟩ | ⟨timed,blocked,rfl⟩ | ⟨learning,-,rfl⟩ | ⟨simulating,rfl⟩ | ⟨-,rfl⟩ | ⟨-,rfl⟩ :=
    System.continuePoppedThread_cases continued
  · exact kept found rfl
  · simp [found] at there
    subst there
    exact resumed_sound sound blocked suspended
  · simp [System.interrupt_self,found] at there
    subst there
    have inside := inside_of_blocked sound blocked
    refine sound_inside inside (fun _ => ⟨?_,blocked⟩) ?_ fun call => ⟨?_,?_⟩
    all_goals simp [System.resumed,VexThreadState.onThreadResumeByManager,VexThreadState.setAwaken,
      VexThreadState.setTimedOut,VexThreadState.beforeThreadInterrupt_eq,isOfCall]
  · simp [found] at there
    subst there
    exact ⟨sound.awake,sound.executing,sound.native,sound.learning,sound.permitted,sound.queueing,sound.simulating⟩
  · obtain ⟨progress,call,queueing,active⟩ := model_of_simulating sound simulating
    have executing := sound.executing (by rw [call]; rfl)
    have learned := mt sound.learning (by simp [call])
    unfold System.resumeModelSimulation at there
    dsimp only at there
    split_ifs at there with timed leaps
    · have entered : ((system.onState t fun state => state.setTimeout (-1)).onThread t fun thread =>
          { thread with state := thread.state.setAwaken false,threadCurrentlyControllingManager := manager
            }).threadRegistry t = some { thread with
            state := (thread.state.setTimeout (-1)).setAwaken false
            threadCurrentlyControllingManager := manager } := by simp [found]
      exact simulateModel_sound entered call executing.1 rfl executing.2.1 learned queueing active there
    · cases found.symm.trans there
      exact ⟨sound.awake,sound.executing,fun native => by simp [call,isNative] at native,sound.learning,sound.permitted,
        sound.queueing,sound.simulating⟩
    · have entered : (system.onThread t fun thread =>
          { thread with state := thread.state.setAwaken false,threadCurrentlyControllingManager := manager
            }).threadRegistry t = some { thread with
            state := thread.state.setAwaken false
            threadCurrentlyControllingManager := manager } := by simp [found]
      exact simulateModel_sound entered call executing.1 rfl executing.2.1 learned queueing active there
  · refine kept ?_ ?_
    · unfold System.pollThreadToCheckIfActuallyRunning
      split_ifs
      · exact found
      · exact found
    · unfold System.pollThreadToCheckIfActuallyRunning
      split_ifs <;> rfl
  · exact kept found rfl

private theorem park_sound {timeout : Int64} (sound : Sound system t thread) (found : system.threadRegistry t = some thread)
    (outside : thread.isOutside = true)
    (there : (system.onPark kind t thread timeout).threadRegistry t = some after) :
    Sound (system.onPark kind t thread timeout) t after := by
  obtain ⟨blocked,running,call⟩ := outside_eq outside
  have codes := codes_of_running running
  have asleep := asleep_of_running sound running
  have entered : (system.onState t fun _ => thread.state.getAndSetUnparkedState.2).threadRegistry t =
      some { thread with state := thread.state.getAndSetUnparkedState.2 } := by simp [found]
  unfold System.onPark at there ⊢
  cases unparked : thread.state.alreadyUnparked with
  | true =>
    simp [VexThreadState.getAndSetUnparkedState,unparked,found] at there
    subst there
    refine sound_inside rfl ?_ codes.2 fun _ => ⟨rfl,codes.1⟩
    intro awake
    exact absurd awake (by simp [asleep])
  | false =>
    simp only [VexThreadState.getAndSetUnparkedState,unparked,Bool.false_eq_true,if_false] at there entered ⊢
    split_ifs at there ⊢ with timed
    · exact wrappedTimedStart_sound rfl entered rfl blocked there
    · exact wrappedStart_sound rfl entered rfl blocked asleep there

private theorem ioEnd_sound {suspends : Bool} (sound : Sound system t thread)
    (found : system.threadRegistry t = some thread) (call : thread.call = .io)
    (there : (system.onIoEnd kind t thread protocol suspends).threadRegistry t = some after) :
    Sound (system.onIoEnd kind t thread protocol suspends) t after := by
  have apart : ¬ system.runs t thread := sound.native (by rw [call]; rfl)
  unfold System.onIoEnd at there ⊢
  cases protocol with
  | lax => exact return_sound found sound.awake (fun running => absurd running apart) there
  | normal =>
    dsimp only at there ⊢
    split_ifs at there ⊢ with learning timed predicted
    · have rolled : (system.onState t fun state => state.setTimeout (-1)).threadRegistry t =
          some { thread with state := thread.state.setTimeout (-1) } := by simp [found]
      exact return_sound rolled sound.awake (fun running => absurd running apart) there
    · exact return_sound found sound.awake (fun running => absurd running apart) there
    · exact return_sound found sound.awake (fun running => absurd running apart) there
    · simp [found] at there
      subst there
      exact sound_outside rfl sound.awake
        (plain_of_ne learning (mt sound.queueing (by simp [call])) (mt sound.simulating (by simp [call])))

private theorem setInModelSimulation_sound {timesliceRemains : Bool} {simulation : System.Simulation}
    (sound : Sound system t thread) (found : system.threadRegistry t = some thread) (outside : thread.isOutside = true)
    (there : (system.setInModelSimulation t thread timesliceRemains simulation).threadRegistry t = some after) :
    Sound (system.setInModelSimulation t thread timesliceRemains simulation) t after := by
  obtain ⟨blocked,running,-⟩ := outside_eq outside
  have asleep := asleep_of_running sound running
  unfold System.setInModelSimulation at there ⊢
  dsimp only at there ⊢
  split_ifs at there ⊢ with remains
  · have entered : ((((system.onState t fun _ => thread.state.setNewState .inModel).setCall t
        (.model .simulating)).unsetCurrentThreadFromRunningThread t thread).onState t fun state =>
          state.setAwaken false).threadRegistry t =
        some { thread with state := (thread.state.setNewState .inModel).setAwaken false,call := .model .simulating } := by
      simp [found]
    exact simulateModel_sound entered rfl blocked rfl rfl (by rintro ⟨⟩) (by rintro ⟨⟩) (fun _ => rfl) there
  · simp [found] at there
    subst there
    exact model_sound rfl blocked asleep rfl (by rintro ⟨⟩) (by rintro ⟨⟩) fun _ => rfl

private theorem unpark_sound (sound : Sound system t thread) (found : system.threadRegistry t = some thread)
    (there : (system.onUnpark t thread).threadRegistry t = some after) : Sound (system.onUnpark t thread) t after := by
  have native (native : isNative thread.call = true) : ¬ (system.onUnpark t thread).runs t thread := by
    unfold System.runs
    rw [System.onUnpark_running]
    exact sound.native native
  unfold System.onUnpark at there
  cases parked : thread.state.parked with
  | false =>
    simp [VexThreadState.getAndSetParkedState,parked,found] at there
    subst there
    exact ⟨sound.awake,sound.executing,native,sound.learning,fun call => ⟨rfl,(sound.permitted call).2⟩,sound.queueing,
      sound.simulating⟩
  | true =>
    have unpermitted : thread.call ≠ .parking true := by
      intro call
      simp [(sound.permitted call).1] at parked
    simp only [VexThreadState.getAndSetParkedState,parked,if_true] at there
    split_ifs at there with timed
    · simp [found] at there
      subst there
      exact ⟨sound.awake,sound.executing,native,sound.learning,fun call => absurd call unpermitted,sound.queueing,
        sound.simulating⟩
    · simp [found] at there
      subst there
      refine ⟨?_,fun executing => ⟨(sound.executing executing).1,rfl,?_⟩,native,by rintro ⟨⟩,
        fun call => absurd call unpermitted,by rintro ⟨⟩,by rintro ⟨⟩⟩
      · simp [VexThreadState.beforeThreadInterrupt_eq,VexThreadState.setTimedOut,VexThreadState.setWaiting,
          VexThreadState.setNewState]
      · simp [VexThreadState.beforeThreadInterrupt_eq,VexThreadState.setTimedOut,VexThreadState.setWaiting,
          VexThreadState.setNewState]

/-- A manager stops the thread that it has signalled. -/
private theorem setSuspended_sound {manager : Nat} (sound : Sound system t thread)
    (found : system.threadRegistry t = some thread) (free : thread.isFree = true)
    (there : ((system.setSuspended kind t thread manager).onBlockedWaitingInVex t).threadRegistry t = some after) :
    Sound ((system.setSuspended kind t thread manager).onBlockedWaitingInVex t) t after := by
  have inside := inside_of_free sound free
  have suspended : (system.setSuspended kind t thread manager).threadRegistry t =
      some { thread with state := thread.state.setSuspended } := by
    simp only [System.setSuspended]
    cases kind with
    | base | strict => split_ifs <;> simp [found]
    | loose =>
      dsimp only
      split_ifs <;> simp [found]
  simp [suspended] at there
  subst there
  exact sound_inside inside (by rintro ⟨⟩) rfl fun call => ⟨(sound.permitted call).1,by rintro ⟨⟩⟩

private theorem disregard_sound (sound : Sound system t thread) (found : system.threadRegistry t = some thread)
    (free : thread.isFree = true)
    (there : ((system.onIntentionToBeDisregarded kind t thread).onState t fun state =>
      state.setNewState .nativeWaiting).threadRegistry t = some after) :
    Sound ((system.onIntentionToBeDisregarded kind t thread).onState t fun state => state.setNewState .nativeWaiting) t
      after := by
  have inside := inside_of_free sound free
  have asleep := asleep_of_running sound (by simp [ManagedThread.isFree] at free; exact free.2)
  have unset : (system.onIntentionToBeDisregarded kind t thread).threadRegistry t = some thread := by
    cases kind with
    | base | strict => simp [System.onIntentionToBeDisregarded,found]
    | loose =>
      simp only [System.onIntentionToBeDisregarded]
      split_ifs <;> simp [found]
  simp [unset] at there
  subst there
  refine sound_inside inside ?_ rfl fun call => ⟨(sound.permitted call).1,by rintro ⟨⟩⟩
  intro awake
  exact absurd awake (by simp [VexThreadState.setNewState,asleep])

private theorem move_sound {move : Move} (sound : Sound system t thread) (found : system.threadRegistry t = some thread)
    (moved : system.move kind protocol t thread move = some next) (there : next.threadRegistry t = some after) :
    Sound next t after := by
  cases move with
  | spawn manager timedWaitingObjectId suspends => cases moved
  | ended =>
    obtain ⟨free,rfl⟩ := allowed moved
    simp [found] at there
    subst there
    have asleep := asleep_of_running sound (by simp [ManagedThread.isFree] at free; exact free.2)
    exact sound_inside rfl (by simp [asleep,VexThreadState.setNewState]) rfl (by rintro ⟨⟩)
  | interactionPoint suspends =>
    obtain ⟨outside,rfl⟩ := allowed moved
    obtain ⟨-,running,call⟩ := outside_eq outside
    obtain ⟨-,same⟩ | rests := System.suspendCurrentThread_self kind thread suspends false found
    · rw [same] at there ⊢
      cases found.symm.trans there
      exact sound
    · exact rest_sound there rests call
  | notifyScaling timeScaled =>
    obtain ⟨outside,rfl⟩ := allowed moved
    obtain ⟨-,running,call⟩ := outside_eq outside
    have codes := codes_of_running running
    have scaled : (system.onThread t fun thread => { thread with timeScaled }).threadRegistry t =
        some { thread with timeScaled } := by simp [found]
    cases kind with
    | base | strict =>
      cases scaled.symm.trans there
      exact sound_outside call sound.awake codes.2
    | loose =>
      cases timeScaled with
      | false =>
        cases scaled.symm.trans there
        exact sound_outside call sound.awake codes.2
      | true => exact rest_sound there (System.setRunningThread_self .loose { thread with timeScaled := true } scaled) call
  | wait objectId updateLockRegistry =>
    obtain ⟨outside,rfl⟩ := allowed moved
    cases updateLockRegistry with
    | false | true =>
      simp [System.onReplacedWaitingStart,System.onReplacedWaiting,found] at there
      subst there
      exact sound_inside rfl (by rintro ⟨⟩) rfl (by rintro ⟨⟩)
  | timedWait objectId timeout updateLockRegistry =>
    obtain ⟨outside,rfl⟩ := allowed moved
    simp [System.onReplacedTimedWaitingStart,found] at there
    subst there
    exact sound_inside rfl (by rintro ⟨⟩) rfl (by rintro ⟨⟩)
  | sleep timeout =>
    obtain ⟨outside,rfl⟩ := allowed moved
    simp [System.onReplacedTimedWaitingStart,found] at there
    subst there
    exact sound_inside rfl (by rintro ⟨⟩) rfl (by rintro ⟨⟩)
  | requestLock =>
    obtain ⟨outside,rfl⟩ := allowed moved
    have codes := codes_of_running (outside_eq outside).2.1
    simp [System.onReplacedWaiting,found] at there
    subst there
    exact sound_inside rfl (by rintro ⟨⟩) codes.2 (by rintro ⟨⟩)
  | releaseLock =>
    obtain ⟨outside,rfl⟩ := allowed moved
    obtain ⟨-,running,call⟩ := outside_eq outside
    have codes := codes_of_running running
    simp [found] at there
    subst there
    exact sound_outside call sound.awake codes.2
  | wrappedWaitingStart =>
    obtain ⟨outside,rfl⟩ := allowed moved
    obtain ⟨blocked,running,-⟩ := outside_eq outside
    exact wrappedStart_sound rfl found rfl blocked (asleep_of_running sound running) there
  | wrappedWaitingEnd suspends =>
    obtain ⟨inside,rfl⟩ := allowed moved
    exact wrappedEnd_sound sound found (by simp [(isIn_eq inside).2]) (by simp [(isIn_eq inside).2]) there
  | wrappedTimedWaitingStart objectId timeout =>
    obtain ⟨outside,rfl⟩ := allowed moved
    exact wrappedTimedStart_sound rfl found rfl (outside_eq outside).1 there
  | wrappedTimedWaitingEnd =>
    obtain ⟨inside,rfl⟩ := allowed moved
    simp [System.onWrappedTimedWaitingEnd,found] at there
    subst there
    exact sound_outside rfl (by rintro ⟨⟩) rfl
  | park timeout =>
    obtain ⟨outside,rfl⟩ := allowed moved
    exact park_sound sound found outside there
  | parked suspends =>
    obtain ⟨inside,rfl⟩ := allowed moved
    obtain ⟨permitted,call⟩ : ∃ permitted, thread.call = .parking permitted := by
      rcases inside with inside | inside
      · exact ⟨_,(isIn_eq inside).2⟩
      · exact ⟨_,(isIn_eq inside).2⟩
    unfold System.onParked at there ⊢
    split_ifs at there ⊢ with timed
    · simp [System.onWrappedTimedWaitingEnd,found] at there
      subst there
      exact sound_outside rfl (by rintro ⟨⟩) rfl
    · exact wrappedEnd_sound sound found (by simp [call]) (by simp [call]) there
  | systemCallStart =>
    obtain ⟨outside,rfl⟩ := allowed moved
    have asleep := asleep_of_running sound (outside_eq outside).2.1
    simp [found] at there
    subst there
    exact sound_inside rfl (by simp [asleep,VexThreadState.setNewState]) rfl (by rintro ⟨⟩)
  | systemCallEnd =>
    obtain ⟨inside,rfl⟩ := allowed moved
    have blocked := (isIn_eq inside).1
    simp [found] at there
    subst there
    refine sound_outside rfl ?_ rfl
    intro awake
    have := (sound.awake awake).2
    simp [blocked] at this
  | ioStart predicted =>
    obtain ⟨outside,rfl⟩ := allowed moved
    obtain ⟨blocked,running,-⟩ := outside_eq outside
    exact ioStart_sound _ found blocked (asleep_of_running sound running) there
  | ioEnd suspends =>
    obtain ⟨inside,rfl⟩ := allowed moved
    exact ioEnd_sound sound found (isIn_eq inside).2 there
  | simulate timesliceRemains simulation =>
    obtain ⟨outside,rfl⟩ := allowed moved
    exact setInModelSimulation_sound sound found outside there
  | modelExit suspends =>
    obtain ⟨inside,rfl⟩ := allowed moved
    have call := (isIn_eq inside).2
    have plain : isOfCall thread.state.currentState = false :=
      plain_of_ne (mt sound.learning (by simp [call])) (mt sound.queueing (by simp [call]))
        (mt sound.simulating (by simp [call]))
    exact return_sound found sound.awake (fun _ => plain) there
  | enter =>
    obtain ⟨⟨inside,-⟩,rfl⟩ := allowed moved
    exact rest_sound there (System.suspendLoose_self kind thread found) (isIn_eq inside).2
  | returnFromBlock acquires =>
    obtain ⟨returns,rfl⟩ := allowed moved
    simp only [Bool.and_eq_true] at returns
    have inside := inside_of_blocked sound returns.1
    exact returnFromBlock_sound found inside (fun call => (sound.permitted call).1) there
  | interrupt isThreadInterruptCall =>
    cases moved
    unfold System.interruptThread at there ⊢
    split_ifs at there ⊢ with waiting
    · simp [System.interrupt_self,found] at there
      subst there
      refine interrupted_sound sound rfl rfl rfl ?_ ?_ ?_ ?_
      · simp
      · simp [VexThreadState.beforeThreadInterrupt_eq,VexThreadState.setTimedOut]
      · simp [VexThreadState.beforeThreadInterrupt_eq,VexThreadState.setTimedOut]
      · simp [VexThreadState.beforeThreadInterrupt_eq,VexThreadState.setTimedOut]
    · cases found.symm.trans there
      exact sound
  | interruptWrapped =>
    obtain ⟨-,rfl⟩ := allowed moved
    simp [found] at there
    subst there
    exact ⟨sound.awake,sound.executing,sound.native,sound.learning,sound.permitted,sound.queueing,sound.simulating⟩
  | handOver =>
    obtain ⟨-,rfl⟩ := allowed moved
    simp [System.interrupt_self,found] at there
    subst there
    refine interrupted_sound sound rfl rfl rfl ?_ ?_ ?_ ?_
    · simp
    · simp [VexThreadState.beforeThreadInterrupt_eq]
    · simp [VexThreadState.beforeThreadInterrupt_eq]
    · simp [VexThreadState.beforeThreadInterrupt_eq]
  | unpark =>
    simp only [System.move,Option.ite_none_left_eq_some,Option.some.injEq] at moved
    obtain ⟨-,rfl⟩ := moved
    exact unpark_sound sound found there
  | resumeCustomer =>
    obtain ⟨call,rfl⟩ := allowed moved
    have executing := sound.executing (by rw [call]; rfl)
    simp [System.resumeCustomer,found] at there
    subst there
    exact model_sound rfl executing.1 executing.2.2 rfl (by rintro ⟨⟩) (by rintro ⟨⟩) fun _ => rfl
  | suspend manager =>
    obtain ⟨⟨free,-⟩,rfl⟩ := allowed moved
    exact setSuspended_sound sound found free there
  | disregard manager =>
    obtain ⟨⟨free,-,-⟩,rfl⟩ := allowed moved
    exact disregard_sound sound found free there
  | continueThread manager answers =>
    simp only [System.move,Option.ite_none_right_eq_some] at moved
    obtain ⟨-,rfl⟩ | ⟨-,continued⟩ | ⟨-,continued⟩ := System.continueThread_cases moved.2
    · cases found.symm.trans there
      exact sound
    · exact continue_sound sound found continued there
    · have popped : Sound (system.erase t) t thread :=
        ⟨sound.awake,sound.executing,sound.native,sound.learning,sound.permitted,sound.queueing,sound.simulating⟩
      exact continue_sound popped found continued there

private theorem spawn_sound {manager : Nat} {timedWaitingObjectId : Int64} {suspends : Bool}
    (there : (system.onThreadStart kind t manager timedWaitingObjectId suspends).threadRegistry t = some after) :
    Sound (system.onThreadStart kind t manager timedWaitingObjectId suspends) t after := by
  have added : (system.add t (System.spawned manager timedWaitingObjectId)).threadRegistry t =
      some (System.spawned manager timedWaitingObjectId) := by simp [System.add]
  obtain ⟨-,same⟩ | rests := System.suspendCurrentThread_self kind (System.spawned manager timedWaitingObjectId) suspends
    false added
  · unfold System.onThreadStart at there
    rw [same] at there
    cases added.symm.trans there
    exact sound_outside rfl (by rintro ⟨⟩) rfl
  · exact rest_sound there rests rfl

def AllSound (system : System) : Prop := ∀ t thread, system.threadRegistry t = some thread → Sound system t thread

theorem allSound_start : AllSound .start := by
  intro t thread found
  simp [System.start] at found

private theorem step_own_sound {event : ManagedThreads.Step} (sound : AllSound system)
    (stepped : system.step kind protocol event = some next) (there : next.threadRegistry event.thread = some after) :
    Sound next event.thread after := by
  obtain ⟨thread,found,moved⟩ | ⟨-,manager,timedWaitingObjectId,suspends,rfl⟩ := System.step_cases stepped
  · exact move_sound (sound event.thread thread found) found moved there
  · exact spawn_sound there

private theorem frame_sound {b : Int64} (sound : Sound system b thread) (frame : Frame t system next) (other : b ≠ t) :
    Sound next b thread := by
  refine ⟨sound.awake,sound.executing,?_,sound.learning,sound.permitted,sound.queueing,sound.simulating⟩
  intro native running
  exact sound.native native (frame.running b _ other running)

theorem allSound_step {event : ManagedThreads.Step} (sound : AllSound system)
    (stepped : system.step kind protocol event = some next) : AllSound next := by
  intro b after there
  have frame := step_frame stepped
  by_cases own : b = event.thread
  · exact own ▸ step_own_sound sound stepped (own ▸ there)
  · exact frame_sound (sound b after ((frame.thread b own).symm.trans there)) frame own

end Soundness

/-! ## Coming back -/

section Return
variable {kind : ManagerKind} {protocol : IoProtocol} {t : Int64} {thread current after : ManagedThread}
  {system next : System}

private theorem back_of_call (call : Call) (back : Back system t) : Back (system.setCall t call) t := by
  rcases back with queued | ⟨running,found,code⟩
  · exact Or.inl queued
  · exact Or.inr ⟨{ running with call },by simp [found],code⟩

private theorem suspendSelf_back (pushes : System.pushesSuspended kind thread = true) :
    Back (system.suspendSelf kind t thread false) t := Or.inl (System.setSuspendedAndPush_queue pushes)

private theorem setRunningThread_back (found : system.threadRegistry t = some current)
    (pushes : System.pushesSuspended kind thread = true) : Back (system.setRunningThread kind t thread) t := by
  unfold System.setRunningThread
  split_ifs with another
  · cases listed : decide (t ∈ system.runnableThreads) with
    | false => exact suspendSelf_back pushes
    | true =>
      left
      simp only [decide_eq_true_eq] at listed
      simpa [System.suspendSelf] using listed
  · right
    refine ⟨{ current with state := (current.state.setAwaken false).setRunning,blocked := false },?_,rfl⟩
    cases kind with
    | base | strict => simp [found]
    | loose =>
      dsimp only
      split_ifs <;> simp [found]

private theorem suspendCurrentThread_back {suspends : Bool} (found : system.threadRegistry t = some current)
    (apart : ¬ system.runs t thread) (pushes : System.pushesSuspended kind thread = true) :
    Back (system.suspendCurrentThread kind t thread suspends false) t := by
  unfold System.suspendCurrentThread
  simp only [if_neg apart,Bool.false_eq_true,if_false]
  split_ifs
  · exact suspendSelf_back pushes
  · exact setRunningThread_back found pushes

private theorem suspendLoose_back (found : system.threadRegistry t = some current)
    (pushes : System.pushesSuspended kind thread = true) : Back (system.suspendLooseCurrentThread kind t thread) t := by
  unfold System.suspendLooseCurrentThread
  split_ifs
  · exact setRunningThread_back found pushes
  · exact suspendSelf_back pushes

/-- The calls that only an interrupt ends. -/
def isReplaced : Call → Bool
  | .replacedWaiting _ | .replacedTimedWaiting _ | .requestingLock => true
  | _ => false

/-- The thread is left out of the queue, and the end of its call will bring it back. -/
structure Away (kind : ManagerKind) (protocol : IoProtocol) (system : System) (t : Int64) (thread : ManagedThread) :
    Prop where
  comes : comesBack kind protocol system t thread = true
  asleep : thread.state.awaken = false
  still : thread.state.currentState = .waiting ∨ (thread.state.currentState = .suspended ∧ isReplaced thread.call = false) ∨
    (thread.state.currentState = .learningIo ∧ thread.call = .io) ∨
    (thread.state.currentState = .inModelWaiting ∧ thread.call = .model .queueing)
  unqueued : t ∉ system.runnableThreads

private theorem pushes_of_code (code : thread.state.currentState = .waiting ∨ thread.state.currentState = .suspended) :
    System.pushesSuspended kind thread = true := by
  cases kind with
  | base | strict => rfl
  | loose => rcases code with code | code <;>
      simp [System.pushesSuspended,VexThreadState.isWaiting,VexThreadState.isSuspended,code]

private theorem not_running_of_away (away : Away kind protocol system t thread) : thread.state.isRunning = false := by
  rcases away.still with code | ⟨code,-⟩ | ⟨code,-⟩ | ⟨code,-⟩ <;> simp [VexThreadState.isRunning,code]

/-- A thread that comes back awaits the end of its call. -/
private theorem awaits_of_comesBack (comes : comesBack kind protocol system t thread = true) :
    ∃ move, awaits thread move = true := by
  unfold comesBack at comes
  cases call : thread.call with
  | outside => exact ⟨.enter,by simp [call] at comes; simp [awaits,call,comes]⟩
  | replacedWaiting _ | replacedTimedWaiting _ => exact ⟨.interrupt false,by simp [awaits,call]⟩
  | requestingLock => exact ⟨.handOver,by simp [awaits,call]⟩
  | wrappedWaiting => exact ⟨.wrappedWaitingEnd false,by simp [awaits,call]⟩
  | parking permitted => cases permitted <;> exact ⟨.parked false,by simp [awaits,call]⟩
  | io => exact ⟨.ioEnd false,by simp [awaits,call]⟩
  | systemCall => exact ⟨.systemCallEnd,by simp [call] at comes; simp [awaits,call,comes]⟩
  | model progress =>
    cases progress with
    | simulating => simp [call] at comes
    | queueing => exact ⟨.resumeCustomer,by simp [awaits,call]⟩
    | finished => exact ⟨.modelExit false,by simp [awaits,call]⟩
  | sleeping | wrappedTimedWaiting | ended => simp [call] at comes

/-- What a move makes of a thread that is away: it is back, or is still away for the same call. -/
private def Stays (kind : ManagerKind) (protocol : IoProtocol) (t : Int64) (thread : ManagedThread) (move : Move)
    (next : System) : Prop :=
  Back next t ∨ (awaits thread move = false ∧ ∃ after, next.threadRegistry t = some after ∧
    Away kind protocol next t after ∧ after.call = thread.call ∧ after.blocked = thread.blocked)

/-- An interrupt or an unpark that pushes nothing. -/
private theorem away_of_signal (away : Away kind protocol system t thread)
    (queue : next.runnableThreads = system.runnableThreads) (running : next.runningThread = system.runningThread)
    (call : after.call = thread.call) (blocked : after.blocked = thread.blocked)
    (manager : after.threadCurrentlyControllingManager = thread.threadCurrentlyControllingManager)
    (asleep : after.state.awaken = false)
    (code : after.state.currentState = .waiting ∨ (after.state.currentState = .suspended ∧ isReplaced thread.call = false))
    (timeout : after.state.timeout = thread.state.timeout ∨ (thread.state.timeout < 0 ∧ after.state.timeout = 0))
    (normal : thread.call = .io → protocol = .normal → thread.state.currentState ≠ .learningIo) :
    Away kind protocol next t after := by
  have pushes : System.pushesSuspended kind after = true := pushes_of_code (code.imp id fun code => code.1)
  refine ⟨?_,asleep,code.imp id fun code => Or.inl ⟨code.1,call ▸ code.2⟩,queue ▸ away.unqueued⟩
  have comes := away.comes
  have runs : next.runs t after ↔ system.runs t thread := by
    unfold System.runs
    rw [running,manager]
  unfold comesBack at comes ⊢
  rw [call]
  cases called : thread.call with
  | outside =>
    simp only [called,Bool.and_eq_true] at comes
    simpa [pushes,blocked] using comes.1
  | replacedWaiting _ | replacedTimedWaiting _ | requestingLock =>
    simp only [called,decide_eq_true_eq] at comes ⊢
    rcases timeout with same | ⟨-,zero⟩
    · rwa [same]
    · exact Or.inl zero
  | wrappedWaiting => exact pushes
  | parking permitted =>
    simp only [called,Bool.and_eq_true,decide_eq_true_eq] at comes ⊢
    refine ⟨⟨comes.1.1,?_⟩,pushes⟩
    rcases timeout with same | ⟨-,zero⟩
    · rw [same]
      exact comes.1.2
    · rw [zero]
      decide
  | io =>
    cases protocol with
    | lax => simp [pushes]
    | normal =>
      simp only [called,Bool.and_eq_true,decide_eq_true_eq] at comes
      exact absurd comes.2.1.1 (normal called rfl)
  | systemCall =>
    simp only [called] at comes
    simpa [blocked] using comes
  | model progress =>
    cases progress with
    | simulating => simp [called] at comes
    | queueing => rfl
    | finished =>
      simp only [called,Bool.and_eq_true] at comes
      simpa [pushes,runs] using comes.2
  | sleeping | wrappedTimedWaiting | ended => simp [called] at comes

/-- A signal that changes no field that the end of the call reads. -/
private theorem away_of_same (away : Away kind protocol system t thread)
    (queue : next.runnableThreads = system.runnableThreads) (running : next.runningThread = system.runningThread)
    (call : after.call = thread.call) (blocked : after.blocked = thread.blocked)
    (scaled : after.timeScaled = thread.timeScaled)
    (manager : after.threadCurrentlyControllingManager = thread.threadCurrentlyControllingManager)
    (asleep : after.state.awaken = thread.state.awaken) (code : after.state.currentState = thread.state.currentState)
    (timeout : after.state.timeout = thread.state.timeout)
    (parked : thread.state.parked = false → after.state.parked = false) : Away kind protocol next t after := by
  have runs : next.runs t after ↔ system.runs t thread := by
    unfold System.runs
    rw [running,manager]
  have pushes : System.pushesSuspended kind after = System.pushesSuspended kind thread := by
    cases kind with
    | base | strict => rfl
    | loose => simp [System.pushesSuspended,scaled,VexThreadState.isNativeWaiting,VexThreadState.isSuspended,
        VexThreadState.isWaiting,code]
  refine ⟨?_,asleep.trans away.asleep,by rw [code,call]; exact away.still,queue ▸ away.unqueued⟩
  have comes := away.comes
  unfold comesBack at comes ⊢
  rw [call,blocked,pushes,timeout,code]
  simp only [runs]
  cases called : thread.call with
  | io =>
    cases protocol with
    | lax => simpa [called] using comes
    | normal =>
      simp only [called,Bool.and_eq_true,Bool.not_eq_true'] at comes ⊢
      exact ⟨comes.1,comes.2.1,parked comes.2.2⟩
  | model progress => cases progress <;> simp_all
  | outside | replacedWaiting _ | replacedTimedWaiting _ | sleeping | requestingLock | wrappedWaiting
  | wrappedTimedWaiting | parking _ | systemCall | ended => simpa only [called] using comes

/-- The interrupt pushes the threads whose timeout tells that they are not in the queue. -/
private theorem interrupt_back (untimed : thread.state.timeout = 0 ∨ thread.state.timeout = -2) :
    t ∈ (system.onAnyReplacedWaitingInterrupt t thread).runnableThreads := by
  unfold System.onAnyReplacedWaitingInterrupt
  dsimp only
  rw [if_neg]
  · simp
  · rintro ⟨nonzero,other⟩
    rcases untimed with zero | untimed
    · exact nonzero zero
    · exact other untimed

private theorem interrupt_stays {isThreadInterruptCall : Bool} (away : Away kind protocol system t thread)
    (found : system.threadRegistry t = some thread) :
    Stays kind protocol t thread (.interrupt isThreadInterruptCall)
      (system.interruptThread t thread isThreadInterruptCall) := by
  unfold System.interruptThread
  split_ifs with waiting
  · by_cases untimed : thread.state.timeout = 0 ∨ thread.state.timeout = -2
    · exact Or.inl (Or.inl (interrupt_back untimed))
    · right
      have code : thread.state.currentState = .waiting := by simpa [VexThreadState.isWaiting] using waiting
      have kept : isReplaced thread.call = false := by
        cases called : thread.call with
        | replacedWaiting _ | replacedTimedWaiting _ | requestingLock =>
          have comes := away.comes
          simp only [comesBack,called,decide_eq_true_eq] at comes
          exact absurd comes untimed
        | _ => rfl
      refine ⟨?_,{ thread with state := thread.state.beforeThreadInterrupt.setTimedOut !isThreadInterruptCall },?_,?_,rfl,
        rfl⟩
      · cases called : thread.call <;> simp_all [awaits,isReplaced]
      · simp [System.interrupt_self,found]
      · refine away_of_signal away (System.interrupt_queue untimed) (by simp) rfl rfl rfl ?_ (Or.inr ⟨?_,kept⟩) ?_ ?_
        · simp [VexThreadState.beforeThreadInterrupt_eq,VexThreadState.setTimedOut]
        · simp [VexThreadState.beforeThreadInterrupt_eq,VexThreadState.setTimedOut]
        · by_cases negative : thread.state.timeout < 0
          · exact Or.inr ⟨negative,by simp [VexThreadState.beforeThreadInterrupt_eq,VexThreadState.setTimedOut,negative]⟩
          · exact Or.inl (by simp [VexThreadState.beforeThreadInterrupt_eq,VexThreadState.setTimedOut,negative])
        · simp [code]
  · right
    have kept : isReplaced thread.call = false := by
      rcases away.still with code | ⟨-,kept⟩ | ⟨-,call⟩ | ⟨-,call⟩
      · exact absurd (by simp [VexThreadState.isWaiting,code]) waiting
      · exact kept
      · rw [call]
        rfl
      · rw [call]
        rfl
    refine ⟨?_,thread,found,away,rfl,rfl⟩
    cases called : thread.call <;> simp_all [awaits,isReplaced]

private theorem unpark_stays (away : Away kind protocol system t thread) (found : system.threadRegistry t = some thread) :
    Stays kind protocol t thread .unpark (system.onUnpark t thread) := by
  right
  have running : (system.onUnpark t thread).runningThread = system.runningThread := System.onUnpark_running
  have queue : (system.onUnpark t thread).runnableThreads = system.runnableThreads := System.onUnpark_queue
  cases parked : thread.state.parked with
  | false =>
    refine ⟨rfl,{ thread with state := { thread.state with alreadyUnparked := true } },?_,?_,rfl,rfl⟩
    · simp [System.onUnpark,VexThreadState.getAndSetParkedState,parked,found]
    · exact away_of_same away queue running rfl rfl rfl rfl rfl rfl rfl id
  | true =>
    by_cases timed : 0 < thread.state.timeout
    · refine ⟨rfl,{ thread with
        state := { thread.state with alreadyUnparked := false,parked := false }.setTimedOut false },?_,?_,rfl,rfl⟩
      · simp [System.onUnpark,VexThreadState.getAndSetParkedState,parked,timed,found]
      · exact away_of_same away queue running rfl rfl rfl rfl rfl rfl rfl fun _ => rfl
    · refine ⟨rfl,{ thread with state := (VexThreadState.beforeThreadInterrupt
        { thread.state with alreadyUnparked := false,parked := false }).setWaiting.setTimedOut false },?_,?_,rfl,rfl⟩
      · simp [System.onUnpark,VexThreadState.getAndSetParkedState,parked,timed,found]
      · refine away_of_signal away queue running rfl rfl rfl ?_ (Or.inl rfl) ?_ ?_
        · simp [VexThreadState.beforeThreadInterrupt_eq,VexThreadState.setTimedOut,VexThreadState.setWaiting,
            VexThreadState.setNewState]
        · by_cases negative : thread.state.timeout < 0
          · refine Or.inr ⟨negative,?_⟩
            simp [VexThreadState.beforeThreadInterrupt_eq,VexThreadState.setTimedOut,VexThreadState.setWaiting,
              VexThreadState.setNewState,negative]
          · refine Or.inl ?_
            simp [VexThreadState.beforeThreadInterrupt_eq,VexThreadState.setTimedOut,VexThreadState.setWaiting,
              VexThreadState.setNewState,negative]
        · -- the normal protocol needs a thread without a park to end
          rintro call rfl learning
          have comes := away.comes
          simp [comesBack,call,parked] at comes

private theorem ioEnd_back {suspends : Bool} (away : Away kind protocol system t thread) (sound : Sound system t thread)
    (found : system.threadRegistry t = some thread) (call : thread.call = .io) :
    Back (system.onIoEnd kind t thread protocol suspends) t := by
  have apart : ¬ system.runs t thread := sound.native (by rw [call]; rfl)
  have comes := away.comes
  apply back_of_call
  cases protocol with
  | lax =>
    simp only [comesBack,call,Bool.and_true] at comes
    exact suspendCurrentThread_back found apart comes
  | normal =>
    simp only [comesBack,call,Bool.and_eq_true,decide_eq_true_eq] at comes
    obtain ⟨pushes,⟨learning,untimed⟩,-⟩ := comes
    simp only [learning,untimed,ne_eq,not_true_eq_false,if_true,if_false]
    exact suspendCurrentThread_back found apart pushes

private theorem wrappedEnd_back {suspends : Bool} (found : system.threadRegistry t = some thread)
    (apart : ¬ system.runs t thread) (pushes : System.pushesSuspended kind thread = true) :
    Back (system.onWrappedWaitingEnd kind t thread suspends) t := by
  have ended : (system.onState t fun _ =>
      ((thread.state.setTimeout (-1)).setAwakeningFromJoin false).setTimedOut true).threadRegistry t =
        some { thread with state := ((thread.state.setTimeout (-1)).setAwakeningFromJoin false).setTimedOut true } := by
    simp [found]
  exact back_of_call .outside (suspendCurrentThread_back ended apart pushes)

private theorem move_stays {move : Move} (away : Away kind protocol system t thread) (sound : Sound system t thread)
    (found : system.threadRegistry t = some thread) (moved : system.move kind protocol t thread move = some next) :
    Stays kind protocol t thread move next := by
  have still := not_running_of_away away
  have comes := away.comes
  cases move with
  | spawn manager timedWaitingObjectId suspends => cases moved
  | ended | suspend _ | disregard _ => simp [System.move,ManagedThread.isFree,still] at moved
  | interactionPoint _ | notifyScaling _ | wait _ _ | timedWait _ _ _ | sleep _ | requestLock | releaseLock
  | wrappedWaitingStart | wrappedTimedWaitingStart _ _ | park _ | systemCallStart | ioStart _ | simulate _ _ =>
    -- its own code does not run
    simp [System.move,ManagedThread.isOutside,ManagedThread.isFree,still] at moved
  | returnFromBlock acquires => simp [System.move,away.asleep] at moved
  | continueThread manager answers => simp [System.move,away.unqueued] at moved
  | wrappedWaitingEnd suspends =>
    obtain ⟨inside,rfl⟩ := allowed moved
    have call := (isIn_eq inside).2
    simp only [comesBack,call] at comes
    exact Or.inl (wrappedEnd_back found (sound.native (by rw [call]; rfl)) comes)
  | wrappedTimedWaitingEnd =>
    obtain ⟨inside,-⟩ := allowed moved
    simp [comesBack,(isIn_eq inside).2] at comes
  | parked suspends =>
    obtain ⟨inside,rfl⟩ := allowed moved
    rcases inside with inside | inside
    · have call := (isIn_eq inside).2
      simp only [comesBack,call,Bool.and_eq_true,decide_eq_true_eq] at comes
      have untimed : ¬ 0 < thread.state.timeout := Int64.not_lt.mpr comes.1.2
      simp only [System.onParked,if_neg untimed]
      exact Or.inl (wrappedEnd_back found (sound.native (by rw [call]; rfl)) comes.2)
    · simp [comesBack,(isIn_eq inside).2] at comes
  | systemCallEnd =>
    obtain ⟨inside,rfl⟩ := allowed moved
    exact Or.inl (Or.inr ⟨{ thread with state := thread.state.setRunning,call := .outside },by simp [found],rfl⟩)
  | ioEnd suspends =>
    obtain ⟨inside,rfl⟩ := allowed moved
    exact Or.inl (ioEnd_back away sound found (isIn_eq inside).2)
  | modelExit suspends =>
    obtain ⟨inside,rfl⟩ := allowed moved
    have call := (isIn_eq inside).2
    simp only [comesBack,call,Bool.and_eq_true,Bool.not_eq_true',decide_eq_false_iff_not] at comes
    have unlisted : thread.state.isWaitingRealCodeToCompleteAfterModelSimulation = false := by
      rcases away.still with code | ⟨code,-⟩ | ⟨code,-⟩ | ⟨code,-⟩ <;>
        simp [VexThreadState.isWaitingRealCodeToCompleteAfterModelSimulation,code]
    left
    unfold System.suspendModelSimulationFinishingThread
    rw [unlisted]
    exact back_of_call _ (suspendCurrentThread_back found comes.2 comes.1)
  | enter =>
    obtain ⟨⟨inside,-⟩,rfl⟩ := allowed moved
    simp only [comesBack,(isIn_eq inside).2,Bool.and_eq_true] at comes
    exact Or.inl (suspendLoose_back found comes.2)
  | interrupt isThreadInterruptCall =>
    cases moved
    exact interrupt_stays away found
  | interruptWrapped =>
    obtain ⟨-,rfl⟩ := allowed moved
    refine Or.inr ⟨rfl,{ thread with state := thread.state.setTimedOut false },by simp [found],?_,rfl,rfl⟩
    exact away_of_same away rfl rfl rfl rfl rfl rfl rfl rfl rfl id
  | handOver =>
    obtain ⟨call,rfl⟩ := allowed moved
    simp only [comesBack,call,decide_eq_true_eq] at comes
    exact Or.inl (Or.inl (interrupt_back comes))
  | unpark =>
    simp only [System.move,Option.ite_none_left_eq_some,Option.some.injEq] at moved
    obtain ⟨-,rfl⟩ := moved
    exact unpark_stays away found
  | resumeCustomer =>
    obtain ⟨-,rfl⟩ := allowed moved
    exact Or.inl (Or.inl (by simp [System.resumeCustomer]))

private theorem away_of_frame {b : Int64} (away : Away kind protocol system b thread) (frame : Frame t system next)
    (other : b ≠ t) : Away kind protocol next b thread := by
  refine ⟨?_,away.asleep,away.still,mt (frame.queue b other).mp away.unqueued⟩
  have comes := away.comes
  unfold comesBack at comes ⊢
  cases call : thread.call with
  | model progress =>
    cases progress with
    | finished =>
      simp only [call,Bool.and_eq_true,Bool.not_eq_true',decide_eq_false_iff_not] at comes ⊢
      exact ⟨comes.1,fun running => comes.2 (frame.running b _ other running)⟩
    | simulating => simp [call] at comes
    | queueing => rfl
  | outside | replacedWaiting _ | replacedTimedWaiting _ | sleeping | requestingLock | wrappedWaiting | wrappedTimedWaiting
  | parking _ | io | systemCall | ended => simpa only [call] using comes

/-- What a thread awaits depends on its call and on whether it is blocked. -/
private theorem awaits_congr (call : after.call = thread.call) (blocked : after.blocked = thread.blocked) (move : Move) :
    awaits after move = awaits thread move := by
  unfold awaits
  rw [call,blocked]

/-- The step of a registered thread is its move. -/
private theorem move_of_step {move : Move} (found : system.threadRegistry t = some thread)
    (stepped : system.step kind protocol ⟨t,move⟩ = some next) : system.move kind protocol t thread move = some next := by
  obtain ⟨registered,there,moved⟩ | ⟨missing,-⟩ := System.step_cases stepped
  · cases found.symm.trans there
    exact moved
  · cases found.symm.trans missing

/-- The party that a thread awaits brings it back, in whatever way the system goes on until then. -/
private theorem boundBack_of_away (sound : AllSound system) (found : system.threadRegistry t = some thread)
    (away : Away kind protocol system t thread) : BoundBack kind protocol t system thread := by
  refine ⟨awaits_of_comesBack away.comes,?_⟩
  intro later stays
  have kept : AllSound later ∧ ∃ current, later.threadRegistry t = some current ∧ Away kind protocol later t current ∧
      current.call = thread.call ∧ current.blocked = thread.blocked := by
    induction stays with
    | refl => exact ⟨sound,thread,found,away,rfl,rfl⟩
    | tail _ stepped ih =>
      obtain ⟨⟨event,stepped⟩,gone⟩ := stepped
      obtain ⟨sound,current,found,away,call,blocked⟩ := ih
      refine ⟨allSound_step sound stepped,?_⟩
      by_cases own : t = event.thread
      · subst own
        obtain back | ⟨-,after,there,still,sameCall,sameBlocked⟩ :=
          move_stays away (sound _ current found) found (move_of_step found stepped)
        · exact absurd back gone
        · exact ⟨after,there,still,sameCall.trans call,sameBlocked.trans blocked⟩
      · have frame := step_frame stepped
        exact ⟨current,(frame.thread t own).trans found,away_of_frame away frame own,call,blocked⟩
  obtain ⟨sound,current,found,away,call,blocked⟩ := kept
  intro move next awaited stepped
  obtain back | ⟨unawaited,-⟩ := move_stays away (sound t current found) found (move_of_step found stepped)
  · exact back
  · rw [awaits_congr call blocked,awaited] at unawaited
    cases unawaited

end Return

/-! ## Threads that are lost -/

section Loss
variable {kind : ManagerKind} {protocol : IoProtocol} {t : Int64} {thread after : ManagedThread} {system next : System}

private theorem step_of_move {move : Move} (found : system.threadRegistry t = some thread)
    (moved : system.move kind protocol t thread move = some next) : system.step kind protocol ⟨t,move⟩ = some next := by
  simp [System.step,found,moved]

/-- An awaited event that does not bring the thread back. -/
private theorem not_boundBack (move : Move) (found : system.threadRegistry t = some thread)
    (awaited : awaits thread move = true) (moved : system.move kind protocol t thread move = some next)
    (gone : ¬ Back next t) : ¬ BoundBack kind protocol t system thread := by
  intro bound
  exact gone (bound.brought system .refl move next awaited (step_of_move found moved))

private theorem not_back (there : next.threadRegistry t = some after) (code : after.state.currentState ≠ .running)
    (queue : next.runnableThreads = system.runnableThreads) (unqueued : t ∉ system.runnableThreads) : ¬ Back next t := by
  rintro (queued | ⟨running,found,runs⟩)
  · exact unqueued (queue ▸ queued)
  · cases there.symm.trans found
    exact code runs

/-- A thread outside of waits that no branch has taken learns about its I/O. -/
private theorem leftOut_cases (leftOut : isLeftOut thread.state thread.timeScaled = true) :
    (thread.state.currentState = .waiting ∧ ¬ 0 < thread.state.timeout) ∨
      (thread.state.currentState = .learningIo ∧ thread.timeScaled = true) := by
  simp only [isLeftOut,Bool.or_eq_true,Bool.and_eq_true,decide_eq_true_eq,VexThreadState.isTimedWaiting,
    VexThreadState.isWaiting,Bool.not_eq_true',decide_eq_false_iff_not,Bool.and_eq_false_iff] at leftOut
  rcases leftOut with ⟨waiting,untimed⟩ | learning
  · exact Or.inl ⟨waiting,untimed.resolve_left (not_not.mpr waiting)⟩
  · exact Or.inr learning

/-- The interrupt takes any other timeout to tell that the thread is still in the queue. -/
private theorem interrupt_gone (found : system.threadRegistry t = some thread) (unqueued : t ∉ system.runnableThreads)
    (other : ¬(thread.state.timeout = 0 ∨ thread.state.timeout = -2)) :
    ¬ Back (system.onAnyReplacedWaitingInterrupt t thread) t := by
  have there : (system.onAnyReplacedWaitingInterrupt t thread).threadRegistry t =
      some { thread with state := thread.state.beforeThreadInterrupt } := by simp [System.interrupt_self,found]
  exact not_back there (by simp [VexThreadState.beforeThreadInterrupt_eq]) (System.interrupt_queue other) unqueued

/-- A suspension in which the thread is taken to be in the queue, or its barrier not to be wanted there. -/
private theorem suspendSelf_gone (listed : Bool) (found : system.threadRegistry t = some after)
    (unqueued : t ∉ system.runnableThreads) (silent : listed = true ∨ System.pushesSuspended kind thread = false) :
    ¬ Back ((system.suspendSelf kind t thread listed).setCall t .outside) t := by
  obtain ⟨last,rested,suspends⟩ := System.suspendSelf_self kind thread listed found
  have there : ((system.suspendSelf kind t thread listed).setCall t .outside).threadRegistry t =
      some { last with call := .outside } := by simp [rested]
  refine not_back there (by simp [suspends.state]) ?_ unqueued
  cases listed with
  | true => simp [System.suspendSelf]
  | false =>
    have silent : System.pushesSuspended kind thread = false := silent.resolve_left (by rintro ⟨⟩)
    cases kind with
    | base | strict => cases silent
    | loose => simp [System.suspendSelf,System.setSuspendedAndPushToRunnables,silent]

/-- The end of a native wait whose thread is taken to be in the queue. -/
private theorem wrappedTimedWaitingEnd_gone (found : system.threadRegistry t = some thread)
    (unqueued : t ∉ system.runnableThreads) : ¬ Back (system.onWrappedTimedWaitingEnd t) t := by
  have there : (system.onWrappedTimedWaitingEnd t).threadRegistry t = some { thread with
      state := (({ thread.state with waitingInRealTime := false }.setTimedOut true).setSuspended).blockHereUntilSignaled
      blocked := true
      call := .outside } := by simp [System.onWrappedTimedWaitingEnd,found]
  exact not_back there nofun rfl unqueued

/-- The end of I/O at which the normal protocol does nothing. -/
private theorem waiting_gone (found : system.threadRegistry t = some thread) (unqueued : t ∉ system.runnableThreads)
    (waiting : thread.state.currentState = .waiting) : ¬ Back (system.setCall t .outside) t := by
  have there : (system.setCall t .outside).threadRegistry t = some { thread with call := .outside } := by simp [found]
  exact not_back there (by simp [waiting]) rfl unqueued

private theorem isIn_of {call : Call} (blocked : thread.blocked = false) (called : thread.call = call) :
    thread.isIn call = true := by simp [ManagedThread.isIn,blocked,called]

/-- A stale mark of a park lets an unpark make a thread in I/O a waiting one, whose I/O then ends without a push. -/
private theorem unpark_gone (found : system.threadRegistry t = some thread) (unqueued : t ∉ system.runnableThreads)
    (blocked : thread.blocked = false) (call : thread.call = .io) (untimed : thread.state.timeout = -1)
    (parked : thread.state.parked = true) : ¬ BoundBack kind .normal t system thread := by
  have unparked : (system.onUnpark t thread).threadRegistry t = some { thread with
      state := (VexThreadState.beforeThreadInterrupt { thread.state with alreadyUnparked := false,parked := false
        }).setWaiting.setTimedOut false } := by
    simp [System.onUnpark,VexThreadState.getAndSetParkedState,parked,untimed,found]
  have queue : (system.onUnpark t thread).runnableThreads = system.runnableThreads := System.onUnpark_queue
  have first : system.step kind .normal ⟨t,.unpark⟩ = some (system.onUnpark t thread) :=
    step_of_move found (by simp [System.move,call])
  have stays : StaysAway kind .normal t system (system.onUnpark t thread) :=
    .single ⟨⟨_,first⟩,not_back unparked (by rintro ⟨⟩) queue unqueued⟩
  intro bound
  have brought := bound.brought _ stays (.ioEnd false) ((system.onUnpark t thread).setCall t .outside)
    (by simp [awaits,call]) (step_of_move unparked ?_)
  · exact waiting_gone unparked (queue ▸ unqueued) rfl brought
  · simp [System.move,ManagedThread.isIn,blocked,call,System.onIoEnd,VexThreadState.setTimedOut,VexThreadState.setWaiting,
      VexThreadState.setNewState]

variable (kind) in
private theorem pushes_waiting (waiting : thread.state.currentState = .waiting) :
    System.pushesSuspended kind thread = true := pushes_of_code (Or.inl waiting)

private theorem io_lost (sound : Sound system t thread) (found : system.threadRegistry t = some thread)
    (unqueued : t ∉ system.runnableThreads) (call : thread.call = .io)
    (code : thread.state.currentState = .waiting ∨ thread.state.currentState = .learningIo)
    (lost : comesBack kind protocol system t thread = false) : ¬ BoundBack kind protocol t system thread := by
  have blocked := (sound.executing (by rw [call]; rfl)).1
  have inside : thread.isIn .io = true := isIn_of blocked call
  have awaited : awaits thread (.ioEnd true) = true := by simp [awaits,call]
  have moved : system.move kind protocol t thread (.ioEnd true) = some (system.onIoEnd kind t thread protocol true) := by
    simp [System.move,inside]
  cases protocol with
  | lax =>
    refine not_boundBack _ found awaited moved ?_
    have silent : System.pushesSuspended kind thread = false := by simpa [comesBack,call] using lost
    simpa [System.onIoEnd,System.suspendCurrentThread] using suspendSelf_gone false found unqueued (Or.inr silent)
  | normal =>
    rcases code with waiting | learning
    · refine not_boundBack _ found awaited moved ?_
      simpa [System.onIoEnd,waiting] using waiting_gone found unqueued waiting
    · by_cases untimed : thread.state.timeout = -1
      · cases pushes : System.pushesSuspended kind thread with
        | true =>
          have parked : thread.state.parked = true := by simpa [comesBack,call,pushes,learning,untimed] using lost
          exact unpark_gone found unqueued blocked call untimed parked
        | false =>
          refine not_boundBack _ found awaited moved ?_
          simpa [System.onIoEnd,learning,untimed,System.suspendCurrentThread] using
            suspendSelf_gone false found unqueued (Or.inr pushes)
      · refine not_boundBack _ found awaited moved ?_
        have rolled : (system.onState t fun state => state.setTimeout (-1)).threadRegistry t =
            some { thread with state := thread.state.setTimeout (-1) } := by simp [found]
        simpa [System.onIoEnd,learning,untimed,System.suspendCurrentThread] using
          suspendSelf_gone true rolled unqueued (Or.inl rfl)

/-- A thread that waits or learns about I/O, and that the end of its call does not bring back, is lost. -/
private theorem not_boundBack_of_lost (sound : Sound system t thread) (found : system.threadRegistry t = some thread)
    (unqueued : t ∉ system.runnableThreads)
    (code : (thread.state.currentState = .waiting ∧ ¬ 0 < thread.state.timeout) ∨ thread.state.currentState = .learningIo)
    (lost : comesBack kind protocol system t thread = false) : ¬ BoundBack kind protocol t system thread := by
  have waiting (other : thread.call ≠ .io) : thread.state.currentState = .waiting ∧ ¬ 0 < thread.state.timeout :=
    code.resolve_right (mt sound.learning other)
  have nothing (none : ∀ move, awaits thread move = false) : ¬ BoundBack kind protocol t system thread := by
    rintro ⟨⟨move,awaited⟩,-⟩
    rw [none] at awaited
    cases awaited
  cases call : thread.call with
  | outside =>
    have pushes := pushes_waiting kind (waiting (by simp [call])).1
    have blocked : thread.blocked = true := by simpa [comesBack,call,pushes] using lost
    exact nothing fun move => by cases move <;> simp [awaits,call,blocked]
  | sleeping | ended => exact nothing fun move => by cases move <;> simp [awaits,call]
  | replacedWaiting _ | replacedTimedWaiting _ =>
    have isWaiting : thread.state.isWaiting = true := by
      simpa [VexThreadState.isWaiting] using (waiting (by simp [call])).1
    refine not_boundBack (.interrupt true) found (by simp [awaits,call]) rfl ?_
    simp only [System.interruptThread,isWaiting,if_true]
    rintro (queued | ⟨running,there,code⟩)
    · exact interrupt_gone found unqueued (by simpa [comesBack,call] using lost) (Or.inl queued)
    · simp [System.interrupt_self,found] at there
      subst there
      simp [VexThreadState.setTimedOut,VexThreadState.beforeThreadInterrupt_eq] at code
  | requestingLock =>
    refine not_boundBack .handOver found (by simp [awaits,call]) (if_pos call) ?_
    exact interrupt_gone found unqueued (by simpa [comesBack,call] using lost)
  | wrappedWaiting =>
    have pushes := pushes_waiting kind (waiting (by simp [call])).1
    simp [comesBack,call,pushes] at lost
  | wrappedTimedWaiting =>
    have inside : thread.isIn .wrappedTimedWaiting = true := isIn_of (sound.executing (by rw [call]; rfl)).1 call
    exact not_boundBack .wrappedTimedWaitingEnd found (by simp [awaits,call]) (if_pos inside)
      (wrappedTimedWaitingEnd_gone found unqueued)
  | parking permitted =>
    have waits := waiting (by simp [call])
    cases permitted with
    | true => exact absurd waits.1 (sound.permitted call).2
    | false =>
      have pushes := pushes_waiting kind waits.1
      simp [comesBack,call,pushes,waits.2] at lost
  | io => exact io_lost sound found unqueued call (code.imp And.left id) lost
  | systemCall =>
    have blocked : thread.blocked = true := by simpa [comesBack,call] using lost
    exact nothing fun move => by cases move <;> simp [awaits,call,blocked]
  | model progress =>
    cases progress with
    | simulating => exact nothing fun move => by cases move <;> simp [awaits,call]
    | queueing => simp [comesBack,call] at lost
    | finished =>
      have waits := (waiting (by simp [call])).1
      have pushes := pushes_waiting kind waits
      have running : system.runs t thread := by simpa [comesBack,call,pushes] using lost
      have inside : thread.isIn (.model .finished) = true := isIn_of (sound.executing (by rw [call]; rfl)).1 call
      refine not_boundBack (.modelExit false) found (by simp [awaits,call]) (if_pos inside) ?_
      have alone : system.anotherThreadAlreadySetRunning t thread = false := by
        unfold System.anotherThreadAlreadySetRunning
        rw [running]
        simp
      simpa [System.suspendModelSimulationFinishingThread,System.suspendCurrentThread,alone,running] using
        waiting_gone found unqueued waits

end Loss

/-! ## Popped threads -/

section Popped
variable {kind : ManagerKind} {protocol : IoProtocol} {t : Int64} {thread after : ManagedThread} {system next : System}
  {manager : Nat} {answers : System.Answers}

private theorem mem_erase_iff (listed : t ∈ system.runnableThreads) :
    t ∈ (system.erase t).runnableThreads ↔ system.runnableThreads.count t ≠ 1 := by
  have counted : 0 < system.runnableThreads.count t := List.count_pos_iff.mpr listed
  have fewer : (system.runnableThreads.erase t).count t = system.runnableThreads.count t - 1 := List.count_erase_self
  show t ∈ system.runnableThreads.erase t ↔ _
  rw [← List.count_pos_iff,fewer]
  omega

@[simp] theorem comesBack_erase :
    comesBack kind protocol (system.erase t) t thread = comesBack kind protocol system t thread := rfl

/-- No branch is for the thread. -/
private theorem continue_leftOut (leftOut : isLeftOut thread.state thread.timeScaled = true) :
    system.continuePoppedThread kind t thread manager answers = some system := by
  rcases leftOut_cases leftOut with ⟨waiting,untimed⟩ | ⟨learning,scaled⟩
  · simp [System.continuePoppedThread,VexThreadState.isSuspended,VexThreadState.inIo,VexThreadState.isTimedWaiting,
      VexThreadState.isWaiting,VexThreadState.isSimulatingModel,VexThreadState.isActiveInModel,
      VexThreadState.isWaitingRealCodeToCompleteAfterModelSimulation,VexThreadState.isRunning,waiting,untimed]
  · simp [System.continuePoppedThread,System.handleIOPerformingThread,VexThreadState.isSuspended,VexThreadState.inIo,
      learning,scaled]

private theorem popped_of_leftOut (leftOut : isLeftOut thread.state thread.timeScaled = true) :
    isHandled thread.state = true ∧ System.getNextIfEqualsElseReturnTop thread manager = .popped := by
  rcases leftOut_cases leftOut with ⟨code,-⟩ | ⟨code,-⟩ <;>
    simp [isHandled,System.getNextIfEqualsElseReturnTop,VexThreadState.isWaiting,VexThreadState.inIo,
      VexThreadState.isRunning,VexThreadState.isWaitingRealCodeToCompleteAfterModelSimulation,code]

private theorem asleep_of_leftOut (sound : Sound system t thread)
    (leftOut : isLeftOut thread.state thread.timeScaled = true) : thread.state.awaken = false := by
  cases awake : thread.state.awaken with
  | false => rfl
  | true =>
    have suspended := (sound.awake awake).1
    rcases leftOut_cases leftOut with ⟨code,-⟩ | ⟨code,-⟩ <;> simp [suspended] at code

/-- A thread that is left out stays in another entry of the queue, or is brought back by the end of its call. -/
private theorem accounted_leftOut_iff (sound : AllSound (system.erase t)) (found : system.threadRegistry t = some thread)
    (listed : t ∈ system.runnableThreads) (leftOut : isLeftOut thread.state thread.timeScaled = true) :
    Accounted kind protocol t thread (system.erase t) ↔
      (system.runnableThreads.count t = 1 → comesBack kind protocol system t thread = true) := by
  have own := sound t thread found
  have asleep := asleep_of_leftOut own leftOut
  constructor
  · rintro ⟨after,there,accounted⟩ single
    cases found.symm.trans there
    have unqueued : t ∉ (system.erase t).runnableThreads := mt (mem_erase_iff listed).mp (not_not.mpr single)
    by_contra lost
    rcases accounted with ⟨-,awake⟩ | more | queued | bound
    · simp [asleep] at awake
    · exact absurd more (lt_irrefl _)
    · exact unqueued queued
    · exact not_boundBack_of_lost own found unqueued ((leftOut_cases leftOut).imp id And.left) (by simpa using lost)
        bound
  · intro comes
    refine ⟨thread,found,Or.inr (Or.inr ?_)⟩
    by_cases queued : t ∈ (system.erase t).runnableThreads
    · exact Or.inl queued
    · right
      have single : system.runnableThreads.count t = 1 := not_not.mp (mt (mem_erase_iff listed).mpr queued)
      refine boundBack_of_away sound found ⟨comes single,asleep,?_,queued⟩
      rcases leftOut_cases leftOut with ⟨waiting,-⟩ | ⟨learning,-⟩
      · exact Or.inl waiting
      · exact Or.inr (Or.inr (Or.inl ⟨learning,own.learning learning⟩))

/-- A thread that queues at a node comes back when it is served. -/
private theorem accounted_queueing {before : ManagedThread} (sound : AllSound next)
    (there : next.threadRegistry t = some after) (call : after.call = .model .queueing)
    (asleep : after.state.awaken = false) (waits : after.state.currentState = .inModelWaiting) :
    Accounted kind protocol t before next := by
  refine ⟨after,there,Or.inr (Or.inr ?_)⟩
  by_cases queued : t ∈ next.runnableThreads
  · exact Or.inl queued
  · have away : Away kind protocol next t after :=
      ⟨by simp [comesBack,call],asleep,Or.inr (Or.inr (Or.inr ⟨waits,call⟩)),queued⟩
    exact Or.inr (boundBack_of_away sound there away)

private theorem accounted_queued {before : ManagedThread} (there : next.threadRegistry t = some after)
    (queued : t ∈ next.runnableThreads) : Accounted kind protocol t before next :=
  ⟨after,there,Or.inr (Or.inr (Or.inl queued))⟩

private theorem simulateModel_accounted {before : ManagedThread} (current : ManagedThread) {simulation : System.Simulation}
    (found : system.threadRegistry t = some current) (asleep : current.state.awaken = false)
    (same : current.state.currentState = thread.state.currentState)
    (queueing : thread.state.currentState = .inModelWaiting → current.call = .model .queueing)
    (simulating : thread.state.isSimulatingModel = true) (sound : AllSound (system.simulateModel t thread simulation)) :
    Accounted kind protocol t before (system.simulateModel t thread simulation) := by
  cases simulation with
  | finished =>
    refine @accounted_queued _ _ _ { current with
        state := current.state.setNewState .afterModelSimWaitingForRealCode,call := .model .finished } _ _ ?_ ?_
    · simp [System.simulateModel,found]
    · simp [System.simulateModel]
  | queues =>
    refine @accounted_queueing _ _ _ { current with
        state := current.state.setNewState .inModelWaiting,call := .model .queueing } _ _ sound ?_ rfl asleep rfl
    simp [System.simulateModel,found]
  | goesOn timeout =>
    have there : (system.simulateModel t thread (.goesOn timeout)).threadRegistry t =
        some { current with state := timeout.elim current.state current.state.setTimeout } := by
      simp only [System.simulateModel]
      split_ifs <;> simp [found]
    by_cases active : thread.state.isActiveInModel = true
    · exact accounted_queued there (by simp [System.simulateModel,active])
    · have waits : thread.state.currentState = .inModelWaiting := by
        simpa [VexThreadState.isSimulatingModel,active] using simulating
      refine accounted_queueing sound there (queueing waits) ?_ ?_
      · cases timeout <;> exact asleep
      · cases timeout <;> exact same.trans waits

/-- A popped thread that a branch takes is resumed, interrupted or pushed back, or queues at a node. -/
private theorem accounted_taken (sound : Sound system t thread) (kept : AllSound next)
    (found : system.threadRegistry t = some thread) (handled : isHandled thread.state = true)
    (popped : System.getNextIfEqualsElseReturnTop thread manager = .popped)
    (taken : isLeftOut thread.state thread.timeScaled = false)
    (continued : system.continuePoppedThread kind t thread manager answers = some next) :
    Accounted kind protocol t thread next := by
  obtain rfl | ⟨suspended,blocked,rfl⟩ | ⟨timed,blocked,rfl⟩ | ⟨learning,-,rfl⟩ | ⟨simulating,rfl⟩ | ⟨waitingRealCode,-⟩ |
      ⟨none,-⟩ := System.continuePoppedThread_cases continued
  · exact accounted_queued found (by simp)
  · exact ⟨System.resumed manager thread,by simp [found],Or.inl ⟨blocked,rfl⟩⟩
  · refine ⟨System.resumed manager { thread with state := thread.state.beforeThreadInterrupt.setTimedOut true },?_,
      Or.inl ⟨blocked,rfl⟩⟩
    simp [System.interrupt_self,found]
  · refine ⟨{ thread with state := thread.state.setTimedOut true,alarms := thread.alarms + 1 },by simp [found],
      Or.inr (Or.inl ?_)⟩
    exact Nat.lt_succ_self _
  · unfold System.resumeModelSimulation at kept ⊢
    dsimp only at kept ⊢
    split_ifs at kept ⊢ with timed leaps
    · refine simulateModel_accounted { thread with
          state := (thread.state.setTimeout (-1)).setAwaken false,threadCurrentlyControllingManager := manager } ?_ rfl rfl
        sound.queueing simulating kept
      simp [found]
    · exact accounted_queued found (by simp)
    · refine simulateModel_accounted { thread with
          state := thread.state.setAwaken false,threadCurrentlyControllingManager := manager } ?_ rfl rfl sound.queueing
        simulating kept
      simp [found]
  · have code := of_decide_eq_true waitingRealCode
    unfold System.getNextIfEqualsElseReturnTop at popped
    simp only [VexThreadState.isRunning,code,waitingRealCode,if_true,if_false] at popped
    split_ifs at popped
  · rcases none with predicted | ⟨learning,scaled⟩ | ⟨suspended,io,untimed,simulating,waitingRealCode⟩
    · simp [System.getNextIfEqualsElseReturnTop,VexThreadState.isRunning,predicted] at popped
    · simp [isLeftOut,learning,scaled] at taken
    · have waiting : thread.state.isWaiting = true := by
        simpa [isHandled,suspended,io,simulating,waitingRealCode] using handled
      simp [isLeftOut,waiting,untimed] at taken

/-- Every handled thread that a step pops is accounted for exactly if the step is covered. -/
theorem keepsPopped_iff (sound : AllSound system) (event : Step) :
    KeepsPopped kind protocol system event ↔ Covered kind protocol system event := by
  obtain ⟨t,move⟩ := event
  constructor
  · intro keeps
    unfold Covered
    split
    · next manager answers thread moves found =>
      cases moves
      intro leftOut single
      have listed : t ∈ system.runnableThreads := List.count_pos_iff.mp (single ▸ Nat.one_pos)
      obtain ⟨handled,popped⟩ := @popped_of_leftOut _ manager leftOut
      have stepped : system.step kind protocol ⟨t,.continueThread manager answers⟩ = some (system.erase t) := by
        refine step_of_move found ?_
        simp only [System.move,if_pos listed,System.continueThread,popped]
        exact continue_leftOut leftOut
      have accounted := keeps manager answers thread _ rfl found handled popped stepped
      exact (accounted_leftOut_iff (allSound_step sound stepped) found listed leftOut).mp accounted single
    · trivial
  · rintro covered manager answers thread next rfl found handled popped stepped
    have kept : AllSound next := allSound_step sound stepped
    have moved := move_of_step found stepped
    simp only [System.move,Option.ite_none_right_eq_some,System.continueThread,popped] at moved
    obtain ⟨listed,continued⟩ := moved
    cases leftOut : isLeftOut thread.state thread.timeScaled with
    | true =>
      rw [continue_leftOut leftOut,Option.some.injEq] at continued
      subst continued
      refine (accounted_leftOut_iff kept found listed leftOut).mpr ?_
      simp only [Covered,found] at covered
      exact covered leftOut
    | false =>
      have own := sound t thread found
      have erased : Sound (system.erase t) t thread :=
        ⟨own.awake,own.executing,own.native,own.learning,own.permitted,own.queueing,own.simulating⟩
      exact accounted_taken erased kept found handled popped leftOut continued

end Popped

/-! ## The theorem -/

/-- A run of any manager drops no popped thread exactly if each of its pops is covered. -/
theorem continued_threads_kept_iff (kind : ManagerKind) (protocol : IoProtocol) (events : List Step) :
    Meets (System.step kind protocol) (KeepsPopped kind protocol) .start events ↔
      Meets (System.step kind protocol) (Covered kind protocol) .start events :=
  meets_congr_of_invariant (fun _ _ _ sound _ stepped => allSound_step sound stepped)
    (fun _ event sound => keepsPopped_iff sound event) allSound_start events

/-- The answers to a scheduler that may continue a thread at once. -/
private def permits : System.Answers := ⟨true,false,true,true,.finished⟩

/-- A thread that waits for a native event without a limit. -/
private def unlimitedWait : List Step := [⟨1,.spawn 0 0 false⟩,⟨1,.wrappedTimedWaitingStart 3 (-1000000)⟩]

/-- A thread whose time is scaled reads a file for the first time. -/
private def scaledRead : List Step := [⟨1,.spawn 0 0 false⟩,⟨1,.notifyScaling true⟩,⟨1,.ioStart false⟩]

private theorem dropped_of_uncovered {kind : ManagerKind} {protocol : IoProtocol} {system : System} {before : List Step}
    {event : Step} (executed : run (System.step kind protocol) .start before = some system)
    (uncovered : ¬ Covered kind protocol system event) : ¬ KeepsPopped kind protocol system event := by
  have sound : AllSound system := invariant (fun _ _ _ sound stepped => allSound_step sound stepped) allSound_start executed
  exact mt (keepsPopped_iff sound event).mp uncovered

/-- The base manager drops a thread in an unlimited native wait, whose end then leaves it suspended and not queued; a
    loosely synchronized one drops a thread with scaled time that learns about I/O. -/
theorem unlimited_wait_dropped :
    (∃ system, run (System.step .base .normal) .start unlimitedWait = some system ∧
      ¬ KeepsPopped .base .normal system ⟨1,.continueThread 0 permits⟩ ∧
      ∃ last, run (System.step .base .normal) system [⟨1,.continueThread 0 permits⟩,⟨1,.wrappedTimedWaitingEnd⟩] =
          some last ∧
        1 ∉ last.runnableThreads ∧
        ∃ thread ∈ last.threadRegistry 1, thread.blocked = true ∧ thread.state.isSuspended = true ∧
          thread.state.awaken = false) ∧
    ∃ system, run (System.step .loose .lax) .start scaledRead = some system ∧
      ¬ KeepsPopped .loose .lax system ⟨1,.continueThread 0 permits⟩ := by
  obtain ⟨waiting,waits,uncovered⟩ := @exists_of_checked _ _ (System.step .base .normal)
    (fun system => !decide (Covered .base .normal system ⟨1,.continueThread 0 permits⟩)) .start unlimitedWait
    (by decide +kernel)
  obtain ⟨last,executed,checked⟩ := @exists_of_checked _ _ (System.step .base .normal)
    (fun system => decide (1 ∉ system.runnableThreads) && (system.threadRegistry 1).any fun thread =>
      thread.blocked && thread.state.isSuspended && !thread.state.awaken) .start
    (unlimitedWait ++ [⟨1,.continueThread 0 permits⟩,⟨1,.wrappedTimedWaitingEnd⟩]) (by decide +kernel)
  obtain ⟨learning,reads,unscaled⟩ := @exists_of_checked _ _ (System.step .loose .lax)
    (fun system => !decide (Covered .loose .lax system ⟨1,.continueThread 0 permits⟩)) .start scaledRead
    (by decide +kernel)
  obtain ⟨middle,first,second⟩ := (run_append _ _ _ _).mp executed
  cases waits.symm.trans first
  simp only [Bool.and_eq_true,decide_eq_true_eq,Option.any_eq_true,Bool.not_eq_true'] at checked
  obtain ⟨unqueued,thread,found,⟨blocked,suspended⟩,asleep⟩ := checked
  refine ⟨⟨waiting,waits,dropped_of_uncovered waits (by simpa using uncovered),last,second,unqueued,thread,found,blocked,
    suspended,asleep⟩,learning,reads,dropped_of_uncovered reads (by simpa using unscaled)⟩

end Vexjine.ContinuedThreads
