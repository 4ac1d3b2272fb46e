import Vexjine.Runs
import Vexjine.ThreadRegistry

/-!
# The threads of several clients at one server

A client describes a new thread to the server, which derives the thread's key in the registry from the
descriptor of the client's listener and from the thread's id at the client, as `VexThreadStateInfo::setInto`
does. Every later request names the server's state itself, so that only the registration of a thread and its
end go through the registry's index.
-/

namespace Vexjine.ClientThreads
open Vexjine.Runs
open Vexjine.ThreadRegistry (State)
set_option linter.unusedSectionVars false

/-- What a client sends of a new thread. The pointer to the client's own state is a number to the server. -/
structure VexThreadStateInfo where
  name : String
  managingSchedulerFd : Int32
  clientStatePtr : UInt64
  uniqueId : Int64
  tid : UInt64
  deriving DecidableEq

/-- `1000000*state->getManagingSchedulerFd()`, a product of unsigned integers, as a `long`. -/
def offset (managingSchedulerFd : Int32) : Int64 := (1000000 * managingSchedulerFd.toUInt32).toUInt64.toInt64

/-- The unique id of a thread at the server. -/
def serverId (managingSchedulerFd : Int32) (uniqueId : Int64) : Int64 := offset managingSchedulerFd + uniqueId

/-- The server's registry, and the fields of its states that name the client. -/
structure ThreadManagerServer (Thread : Type) where
  threadRegistry : State Thread Unit
  managingSchedulerFd : Thread → UInt32
  vtfClientStatePtr : Thread → UInt64

def initial (Thread : Type) : ThreadManagerServer Thread where
  threadRegistry := ThreadRegistry.initial Thread Unit
  managingSchedulerFd := fun _ => 0
  vtfClientStatePtr := fun _ => 0

/-- The requests that change the registry. The global time is read when the thread is registered. -/
inductive Request (Thread : Type)
  | addNewThreadState (newstate : Thread) (threadStateInfo : VexThreadStateInfo) (globalTime : Int)
  | threadEnd (state : Thread)
  deriving DecidableEq

variable {Thread : Type} [DecidableEq Thread]

namespace ThreadManagerServer
variable (server : ThreadManagerServer Thread)

/-- The thread's own id is narrowed to an `int`. -/
def setInto (info : VexThreadStateInfo) (t : Thread) : ThreadManagerServer Thread :=
  { threadRegistry := server.threadRegistry.onThread t fun thread => { thread with
      name := info.name
      uniqueId := serverId info.managingSchedulerFd info.uniqueId
      tid := info.tid.toUInt32.toInt32.toInt64 }
    managingSchedulerFd := Function.update server.managingSchedulerFd t info.managingSchedulerFd.toUInt32
    vtfClientStatePtr := Function.update server.vtfClientStatePtr t info.clientStatePtr }

def addNewThreadState (t : Thread) (info : VexThreadStateInfo) (globalTime : Int) : ThreadManagerServer Thread :=
  let described := server.setInto info t
  { described with
    threadRegistry := (described.threadRegistry.onThread t fun thread =>
      { thread with estimatedRealTime := globalTime,currentState := .registering }).add t }

def threadEnd (t : Thread) : ThreadManagerServer Thread :=
  { server with
    threadRegistry := (server.threadRegistry.onThread t fun thread =>
      { thread with position := .dead,currentState := .vexZombie }).remove t }

end ThreadManagerServer

/-- A thread is registered once, and ends once. -/
def step (server : ThreadManagerServer Thread) : Request Thread → Option (ThreadManagerServer Thread)
  | .addNewThreadState t info globalTime =>
    if (server.threadRegistry.threads t).position = .absent then some (server.addNewThreadState t info globalTime)
    else none
  | .threadEnd t =>
    if (server.threadRegistry.threads t).position = .registered then some (server.threadEnd t) else none

/-! ## The law -/

/-- The connection that a request is about. -/
def Request.connection (server : ThreadManagerServer Thread) : Request Thread → UInt32
  | .addNewThreadState _ info _ => info.managingSchedulerFd.toUInt32
  | .threadEnd t => server.managingSchedulerFd t

/-- A request leaves the registered threads of the other connections, and their entries in the index, as they are. -/
def Isolated (server : ThreadManagerServer Thread) (request : Request Thread) : Prop :=
  ∀ next ∈ step server request, ∀ other, (server.threadRegistry.threads other).position = .registered →
    server.managingSchedulerFd other ≠ request.connection server →
      next.threadRegistry.threads other = server.threadRegistry.threads other ∧
      next.threadRegistry.threadStateIndex (server.threadRegistry.threads other).uniqueId =
        server.threadRegistry.threadStateIndex (server.threadRegistry.threads other).uniqueId

/-- The threads that the requests describe are among the given connections and ids. -/
def Describes (sessions : Set (Int32 × Int64)) (requests : List (Request Thread)) : Prop :=
  ∀ t info globalTime, Request.addNewThreadState t info globalTime ∈ requests →
    (info.managingSchedulerFd,info.uniqueId) ∈ sessions

/-- No two threads of different connections have ids that differ by as much as the offsets of their connections,
    which is a million times the difference of the descriptors while that fits. -/
def Apart (sessions : Set (Int32 × Int64)) : Prop :=
  ∀ first ∈ sessions, ∀ second ∈ sessions, first.1 ≠ second.1 →
    second.2 - first.2 ≠ offset first.1 - offset second.1

/-! ## Keys -/

variable {sessions : Set (Int32 × Int64)}

private theorem serverId_eq_iff (first second : Int32 × Int64) :
    serverId first.1 first.2 = serverId second.1 second.2 ↔
      second.2 - first.2 = offset first.1 - offset second.1 := by
  unfold serverId
  constructor
  · intro same
    grind
  · intro same
    grind

theorem injOn_serverId_iff :
    Set.InjOn (fun session => serverId session.1 session.2) sessions ↔ Apart sessions := by
  constructor
  · intro injective first inFirst second inSecond differ same
    have equal := injective inFirst inSecond ((serverId_eq_iff first second).mpr same)
    exact differ (congrArg Prod.fst equal)
  · intro apart first inFirst second inSecond same
    by_cases differ : first.1 = second.1
    · apply Prod.ext differ
      have ids : serverId first.1 first.2 = serverId second.1 second.2 := same
      rw [differ] at ids
      unfold serverId at ids
      grind
    · exact absurd ((serverId_eq_iff first second).mp same) (apart first inFirst second inSecond differ)

private theorem toInt_toInt64_of_lt {n : UInt64} (small : n.toNat < 2 ^ 63) : n.toInt64.toInt = n.toNat := by
  have bits : n.toInt64.toInt = n.toBitVec.toInt := rfl
  rw [bits,BitVec.toInt_eq_toNat_cond]
  simp only [UInt64.toNat_toBitVec]
  split <;> omega

theorem offset_toInt {managingSchedulerFd : Int32} (few : managingSchedulerFd.toUInt32.toNat < 4294) :
    (offset managingSchedulerFd).toInt = 1000000 * managingSchedulerFd.toUInt32.toNat := by
  have million : (1000000 : UInt32).toNat = 1000000 := rfl
  have product : (1000000 * managingSchedulerFd.toUInt32).toUInt64.toNat =
      1000000 * managingSchedulerFd.toUInt32.toNat := by
    rw [UInt32.toNat_toUInt64,UInt32.toNat_mul,million]
    omega
  unfold offset
  rw [toInt_toInt64_of_lt (by omega),product]
  push_cast
  rfl

/-- Ids below a million at descriptors whose product does not wrap. -/
theorem apart_of_small
    (few : ∀ session ∈ sessions, session.1.toUInt32.toNat < 4294)
    (small : ∀ session ∈ sessions, 0 ≤ session.2.toInt ∧ session.2.toInt < 1000000) : Apart sessions := by
  intro first inFirst second inSecond differ equal
  have same := congrArg Int64.toInt ((serverId_eq_iff first second).mpr equal)
  obtain ⟨firstLow,firstHigh⟩ := small first inFirst
  obtain ⟨secondLow,secondHigh⟩ := small second inSecond
  have firstFew := few first inFirst
  have secondFew := few second inSecond
  unfold serverId at same
  rw [Int64.toInt_add,Int64.toInt_add,offset_toInt firstFew,offset_toInt secondFew,
    Int.bmod_eq_of_le (by omega) (by omega),Int.bmod_eq_of_le (by omega) (by omega)] at same
  have descriptors : first.1.toUInt32 = second.1.toUInt32 := UInt32.toNat.inj (by omega)
  apply differ
  rw [← Int32.toInt32_toUInt32 first.1,descriptors,Int32.toInt32_toUInt32]

/-! ## Requests -/

variable {server : ThreadManagerServer Thread}

/-- Every registered thread has a key that was derived from one of the sessions, and nobody waits to join it. -/
structure Derived (sessions : Set (Int32 × Int64)) (server : ThreadManagerServer Thread) : Prop where
  key : ∀ t, (server.threadRegistry.threads t).position = .registered → ∃ session ∈ sessions,
    server.managingSchedulerFd t = session.1.toUInt32 ∧
      (server.threadRegistry.threads t).uniqueId = serverId session.1 session.2
  joins : ∀ t, (server.threadRegistry.threads t).parentThreadWaitingYouToJoin = none

private theorem derived_initial : Derived sessions (initial Thread) := by
  constructor
  · intro t registered
    cases registered
  · intro t
    rfl

private theorem addNewThreadState_threads {t other : Thread} (differ : other ≠ t) (info : VexThreadStateInfo)
    (globalTime : Int) : (server.addNewThreadState t info globalTime).threadRegistry.threads other =
      server.threadRegistry.threads other := by
  simp [ThreadManagerServer.addNewThreadState,ThreadManagerServer.setInto,State.add,State.newThreadStarted,State.onThread,
    differ]

private theorem addNewThreadState_index (t : Thread) (info : VexThreadStateInfo) (globalTime : Int) :
    (server.addNewThreadState t info globalTime).threadRegistry.threadStateIndex =
      Function.update server.threadRegistry.threadStateIndex (serverId info.managingSchedulerFd info.uniqueId) (some t) := by
  simp [ThreadManagerServer.addNewThreadState,ThreadManagerServer.setInto,State.add,State.newThreadStarted,State.onThread]

variable (server) in
private theorem addNewThreadState_self (t : Thread) (info : VexThreadStateInfo) (globalTime : Int) :
    let thread := (server.addNewThreadState t info globalTime).threadRegistry.threads t
    thread.uniqueId = serverId info.managingSchedulerFd info.uniqueId ∧
      thread.parentThreadWaitingYouToJoin = (server.threadRegistry.threads t).parentThreadWaitingYouToJoin := by
  simp [ThreadManagerServer.addNewThreadState,ThreadManagerServer.setInto,State.add,State.newThreadStarted,State.onThread]

/-- Nobody is notified. -/
private theorem threadEnd_eq (derived : Derived sessions server) (t : Thread) :
    (server.threadEnd t).threadRegistry.threadStateIndex =
        Function.update server.threadRegistry.threadStateIndex (server.threadRegistry.threads t).uniqueId none ∧
      (server.threadEnd t).threadRegistry.threads = Function.update server.threadRegistry.threads t
        { server.threadRegistry.threads t with position := .removed,currentState := .vexZombie } := by
  have nobody := derived.joins t
  constructor
  · simp [ThreadManagerServer.threadEnd,State.remove,State.notifyParentWaitingForYouToJoin,State.setPosition,State.onThread,
      nobody]
  · simp [ThreadManagerServer.threadEnd,State.remove,State.notifyParentWaitingForYouToJoin,State.setPosition,State.onThread,
      nobody]

private theorem derived_addNewThreadState (derived : Derived sessions server) (t : Thread) (info : VexThreadStateInfo)
    (globalTime : Int) (sent : (info.managingSchedulerFd,info.uniqueId) ∈ sessions) :
    Derived sessions (server.addNewThreadState t info globalTime) := by
  obtain ⟨uniqueId,joins⟩ := addNewThreadState_self server t info globalTime
  constructor
  · intro other registered
    by_cases same : other = t
    · subst same
      exact ⟨_,sent,Function.update_self _ _ _,uniqueId⟩
    · rw [addNewThreadState_threads same] at registered ⊢
      obtain ⟨session,member,descriptor,key⟩ := derived.key other registered
      exact ⟨session,member,(Function.update_of_ne same _ _).trans descriptor,key⟩
  · intro other
    by_cases same : other = t
    · subst same
      exact joins.trans (derived.joins other)
    · rw [addNewThreadState_threads same]
      exact derived.joins other

private theorem derived_threadEnd (derived : Derived sessions server) (t : Thread) :
    Derived sessions (server.threadEnd t) := by
  obtain ⟨-,threads⟩ := threadEnd_eq derived t
  constructor
  · intro other registered
    rw [threads] at registered ⊢
    by_cases same : other = t
    · subst same
      simp at registered
    · rw [Function.update_of_ne same] at registered ⊢
      exact derived.key other registered
  · intro other
    rw [threads]
    by_cases same : other = t
    · subst same
      rw [Function.update_self]
      exact derived.joins other
    · rw [Function.update_of_ne same]
      exact derived.joins other

/-- Registered threads of different connections have different keys. -/
private theorem key_ne (apart : Apart sessions) (derived : Derived sessions server) {other : Thread}
    (registered : (server.threadRegistry.threads other).position = .registered) {session : Int32 × Int64}
    (member : session ∈ sessions) (differ : server.managingSchedulerFd other ≠ session.1.toUInt32) :
    (server.threadRegistry.threads other).uniqueId ≠ serverId session.1 session.2 := by
  obtain ⟨own,inSessions,descriptor,key⟩ := derived.key other registered
  rw [key]
  intro same
  have one := injOn_serverId_iff.mpr apart inSessions member same
  apply differ
  rw [descriptor,one]

private theorem isolated_of_derived (apart : Apart sessions) (derived : Derived sessions server) (request : Request Thread)
    (sent : ∀ t info globalTime, request = .addNewThreadState t info globalTime →
      (info.managingSchedulerFd,info.uniqueId) ∈ sessions) : Isolated server request := by
  intro next stepped other registered differ
  cases request with
  | addNewThreadState t info globalTime =>
    simp only [step,Option.mem_def,Option.ite_none_right_eq_some,Option.some.injEq] at stepped
    obtain ⟨absent,rfl⟩ := stepped
    have notNew : other ≠ t := by
      intro same
      rw [same,absent] at registered
      cases registered
    refine ⟨addNewThreadState_threads notNew info globalTime,?_⟩
    rw [addNewThreadState_index,Function.update_of_ne (key_ne apart derived registered (sent _ _ _ rfl) differ)]
  | threadEnd t =>
    simp only [step,Option.mem_def,Option.ite_none_right_eq_some,Option.some.injEq] at stepped
    obtain ⟨ends,rfl⟩ := stepped
    obtain ⟨index,threads⟩ := threadEnd_eq derived t
    obtain ⟨session,member,descriptor,key⟩ := derived.key t ends
    have notEnding : other ≠ t := by
      rintro rfl
      exact differ rfl
    rw [index,threads,key]
    refine ⟨Function.update_of_ne notEnding _ _,Function.update_of_ne ?_ _ _⟩
    apply key_ne apart derived registered member
    rw [← descriptor]
    exact differ

private theorem derived_step {request : Request Thread} {next : ThreadManagerServer Thread}
    (derived : Derived sessions server) (stepped : step server request = some next)
    (sent : ∀ t info globalTime, request = .addNewThreadState t info globalTime →
      (info.managingSchedulerFd,info.uniqueId) ∈ sessions) : Derived sessions next := by
  cases request with
  | addNewThreadState t info globalTime =>
    simp only [step,Option.ite_none_right_eq_some,Option.some.injEq] at stepped
    obtain ⟨-,rfl⟩ := stepped
    exact derived_addNewThreadState derived t info globalTime (sent _ _ _ rfl)
  | threadEnd t =>
    simp only [step,Option.ite_none_right_eq_some,Option.some.injEq] at stepped
    obtain ⟨-,rfl⟩ := stepped
    exact derived_threadEnd derived t

private theorem isolated_run (apart : Apart sessions) (derived : Derived sessions server) {requests : List (Request Thread)}
    (describes : Describes sessions requests) : Meets step Isolated server requests := by
  induction requests generalizing server with
  | nil => trivial
  | cons request rest ih =>
    have sent : ∀ t info globalTime, request = .addNewThreadState t info globalTime →
        (info.managingSchedulerFd,info.uniqueId) ∈ sessions := by
      rintro t info globalTime rfl
      exact describes t info globalTime List.mem_cons_self
    refine ⟨isolated_of_derived apart derived request sent,fun next stepped => ?_⟩
    apply ih (derived_step derived stepped sent)
    intro t info globalTime member
    exact describes t info globalTime (List.mem_cons_of_mem request member)

/-- Different threads of the given connections have different unique ids, and no request reaches a thread of another
    connection, exactly if no ids differ by as much as the offsets of their connections. -/
theorem clients_isolated_iff (Thread : Type) [DecidableEq Thread] (sessions : Set (Int32 × Int64)) :
    (Set.InjOn (fun session => serverId session.1 session.2) sessions ∧
      ∀ requests : List (Request Thread), Describes sessions requests →
        Meets step Isolated (initial Thread) requests) ↔ Apart sessions := by
  constructor
  · rintro ⟨injective,-⟩
    exact injOn_serverId_iff.mp injective
  · intro apart
    exact ⟨injOn_serverId_iff.mpr apart,fun requests describes => isolated_run apart derived_initial describes⟩

/-- The thread 1000001 of the client at descriptor 5 and the thread 1 of the client at descriptor 6. -/
def collidingRequests : List (Request Bool) :=
  [.addNewThreadState false ⟨"main",5,0,1000001,11⟩ 0,
   .addNewThreadState true ⟨"main",6,0,1,12⟩ 0,
   .threadEnd true]

/-- The second client's thread takes the first one's entry, and its end removes it while the first runs on. -/
theorem ids_collide : ¬ Set.InjOn (fun session : Int32 × Int64 => serverId session.1 session.2) {(5,1000001),(6,1)} ∧
    ∃ last, run step (initial Bool) collidingRequests = some last ∧
      (last.threadRegistry.threads false).position = .registered ∧
      last.threadRegistry.threadStateIndex (last.threadRegistry.threads false).uniqueId = none := by
  constructor
  · intro injective
    have same := injective (Set.mem_insert _ _) (Set.mem_insert_of_mem _ rfl)
      (show serverId 5 1000001 = serverId 6 1 by decide)
    exact absurd (congrArg Prod.snd same) (by decide)
  · obtain ⟨last,executed,checked⟩ := @exists_of_checked _ _ step
      (fun last : ThreadManagerServer Bool => decide ((last.threadRegistry.threads false).position = .registered ∧
        last.threadRegistry.threadStateIndex (last.threadRegistry.threads false).uniqueId = none))
      (initial Bool) collidingRequests (by decide +kernel)
    exact ⟨last,executed,by simpa using checked⟩

end Vexjine.ClientThreads
