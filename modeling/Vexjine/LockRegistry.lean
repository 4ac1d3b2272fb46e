import Vexjine.Runs

/-!
# The lock registries

`LockRegistry` keeps for each lock identifier a monitor flag and the threads
contended on it; `ReentrantLockRegistry` adds the owner and a count of nested
entries. Both methods of a registry run under its own mutex from their first to
their last statement, so each call is one atomic function of the registry here.
The contended threads are a `vector` written by `push_back` and read from its
last position.
-/

namespace Vexjine.LockRegistry
set_option linter.unusedSimpArgs false

/-- A `map<long, Info *>`: identifiers without an entry map to `none`. -/
abbrev Registry (Info : Type) := Int64 → Option Info

/-- The fields of `LockRegistryInfo`, as its constructor sets them. -/
structure LockRegistryInfo (Thread : Type) where
  threadsContendedOnLock : List Thread := []
  monitorLocked : Bool := true

section Base
variable {Thread : Type}

namespace LockRegistryInfo

def enterMonitor (info : LockRegistryInfo Thread) : LockRegistryInfo Thread :=
  { info with monitorLocked := true }

def releaseMonitor (info : LockRegistryInfo Thread) : Bool × LockRegistryInfo Thread :=
  (true,{ info with monitorLocked := false })

def isMonitorFree (info : LockRegistryInfo Thread) : Bool := !info.monitorLocked

def blockOnMonitor (info : LockRegistryInfo Thread) (state : Thread) : LockRegistryInfo Thread :=
  { info with threadsContendedOnLock := info.threadsContendedOnLock ++ [state] }

end LockRegistryInfo

/-- `LockRegistry::tryAcquiringLock`: whether the lock was acquired, and the registry after. -/
def tryAcquiringLock (registry : Registry (LockRegistryInfo Thread)) (state : Thread) (lockId : Int64) :
    Bool × Registry (LockRegistryInfo Thread) :=
  match registry lockId with
  | some info =>
    if info.isMonitorFree then (true,Function.update registry lockId (some info.enterMonitor))
    else (false,Function.update registry lockId (some (info.blockOnMonitor state)))
  | none => (true,Function.update registry lockId (some {}))

/-- `LockRegistry::releaseAndGetNext`: the thread that is handed the lock, if any. -/
def releaseAndGetNext (registry : Registry (LockRegistryInfo Thread)) (lockId : Int64) :
    Option Thread × Registry (LockRegistryInfo Thread) :=
  match registry lockId with
  | some info =>
    match info.threadsContendedOnLock.getLast? with
    | none => (none,Function.update registry lockId (some info.releaseMonitor.2))
    | some state => (some state,Function.update registry lockId
        (some { info with threadsContendedOnLock := info.threadsContendedOnLock.dropLast }))
  | none => (none,registry)

/-- The contended list of a lock; a lock without an entry has none. -/
def contended (registry : Registry (LockRegistryInfo Thread)) (lockId : Int64) : List Thread :=
  ((registry lockId).map LockRegistryInfo.threadsContendedOnLock).getD []

/-- The monitor flag of a lock; a lock without an entry is free. -/
def locked (registry : Registry (LockRegistryInfo Thread)) (lockId : Int64) : Bool :=
  ((registry lockId).map LockRegistryInfo.monitorLocked).getD false

@[simp] theorem contended_update_some (registry : Registry (LockRegistryInfo Thread)) (lockId other : Int64)
    (info : LockRegistryInfo Thread) : contended (Function.update registry lockId (some info)) other =
      if other = lockId then info.threadsContendedOnLock else contended registry other := by
  by_cases same : other = lockId <;> simp [contended,same]

@[simp] theorem locked_update_some (registry : Registry (LockRegistryInfo Thread)) (lockId other : Int64)
    (info : LockRegistryInfo Thread) : locked (Function.update registry lockId (some info)) other =
      if other = lockId then info.monitorLocked else locked registry other := by
  by_cases same : other = lockId <;> simp [locked,same]

/-- A try succeeds exactly on a monitor that is not locked. -/
theorem tryAcquiringLock_result (registry : Registry (LockRegistryInfo Thread)) (state : Thread) (lockId : Int64) :
    (tryAcquiringLock registry state lockId).1 = !locked registry lockId := by
  cases found : registry lockId with
  | none => simp [tryAcquiringLock,locked,found]
  | some info => cases flag : info.monitorLocked <;>
      simp [tryAcquiringLock,locked,found,flag,LockRegistryInfo.isMonitorFree]

/-- After a try the monitor is locked; other locks keep their flag. -/
theorem tryAcquiringLock_locked (registry : Registry (LockRegistryInfo Thread)) (state : Thread)
    (lockId other : Int64) : locked (tryAcquiringLock registry state lockId).2 other =
      (decide (other = lockId) || locked registry other) := by
  cases found : registry lockId with
  | none => by_cases same : other = lockId <;> simp [tryAcquiringLock,found,same]
  | some info => cases flag : info.monitorLocked <;> by_cases same : other = lockId <;>
      simp [tryAcquiringLock,found,same,flag,LockRegistryInfo.isMonitorFree,
        LockRegistryInfo.enterMonitor,LockRegistryInfo.blockOnMonitor]

/-- A try only appends the caller, and only to the list of a locked monitor. -/
theorem tryAcquiringLock_contended (registry : Registry (LockRegistryInfo Thread)) (state : Thread)
    (lockId other : Int64) : contended (tryAcquiringLock registry state lockId).2 other =
      if other = lockId ∧ locked registry lockId then contended registry other ++ [state]
      else contended registry other := by
  cases found : registry lockId with
  | none => by_cases same : other = lockId <;> simp [tryAcquiringLock,found,same,locked,contended]
  | some info => cases flag : info.monitorLocked <;> by_cases same : other = lockId <;>
      simp [tryAcquiringLock,found,same,flag,locked,contended,LockRegistryInfo.isMonitorFree,
        LockRegistryInfo.enterMonitor,LockRegistryInfo.blockOnMonitor]

/-- A release hands the lock to the contended thread that came last. -/
theorem releaseAndGetNext_result (registry : Registry (LockRegistryInfo Thread)) (lockId : Int64) :
    (releaseAndGetNext registry lockId).1 = (contended registry lockId).getLast? := by
  cases found : registry lockId with
  | none => simp [releaseAndGetNext,contended,found]
  | some info => cases last : info.threadsContendedOnLock.getLast? <;>
      simp [releaseAndGetNext,contended,found,last]

/-- The flag of a released lock stays set exactly when the lock is handed on. -/
theorem releaseAndGetNext_locked (registry : Registry (LockRegistryInfo Thread)) (lockId other : Int64) :
    locked (releaseAndGetNext registry lockId).2 other =
      if other = lockId ∧ contended registry lockId = [] then false else locked registry other := by
  cases found : registry lockId with
  | none => by_cases same : other = lockId <;> simp [releaseAndGetNext,contended,locked,found,same]
  | some info =>
    cases last : info.threadsContendedOnLock.getLast? with
    | none =>
      have empty := List.getLast?_eq_none_iff.mp last
      by_cases same : other = lockId <;>
        simp [releaseAndGetNext,contended,found,last,empty,same,LockRegistryInfo.releaseMonitor]
    | some state =>
      have filled : info.threadsContendedOnLock ≠ [] := by
        rintro empty
        simp [empty] at last
      by_cases same : other = lockId <;> simp [releaseAndGetNext,contended,locked,found,last,filled,same]

/-- A release removes the last entry of the released lock and nothing else. -/
theorem releaseAndGetNext_contended (registry : Registry (LockRegistryInfo Thread)) (lockId other : Int64) :
    contended (releaseAndGetNext registry lockId).2 other =
      if other = lockId then (contended registry lockId).dropLast else contended registry other := by
  cases found : registry lockId with
  | none => by_cases same : other = lockId <;> simp [releaseAndGetNext,contended,found,same]
  | some info =>
    cases last : info.threadsContendedOnLock.getLast? with
    | none =>
      have empty := List.getLast?_eq_none_iff.mp last
      by_cases same : other = lockId <;>
        simp [releaseAndGetNext,contended,found,last,empty,same,LockRegistryInfo.releaseMonitor]
    | some state => by_cases same : other = lockId <;> simp [releaseAndGetNext,contended,found,last,same]

end Base

/-! ## Callers of the base registry -/

/-- Writes one cell of a table over threads and locks. -/
def assign {Thread Value : Type} [DecidableEq Thread] (table : Thread → Int64 → Value) (state : Thread)
    (lockId : Int64) (value : Value) : Thread → Int64 → Value :=
  fun thread lock => if thread = state ∧ lock = lockId then value else table thread lock

/-- The registry beside the history of its answers: who obtained each lock last, who obtained
    it and did not release it since, how often each thread was refused and was returned, and
    the lock a thread waits for after its last refusal. -/
structure Callers (Thread : Type) where
  registry : Registry (LockRegistryInfo Thread) := fun _ => none
  lastObtained : Int64 → Option Thread := fun _ => none
  holds : Thread → Int64 → Bool := fun _ _ => false
  refused : Thread → Int64 → Nat := fun _ _ => 0
  returned : Thread → Int64 → Nat := fun _ _ => 0
  blockedOn : Thread → Option Int64 := fun _ => none

inductive Call (Thread : Type)
  | tryAcquiringLock (state : Thread) (lockId : Int64)
  | releaseAndGetNext (state : Thread) (lockId : Int64)

def Call.caller {Thread : Type} : Call Thread → Thread
  | .tryAcquiringLock state _ => state
  | .releaseAndGetNext state _ => state

section Callers
variable {Thread : Type} [DecidableEq Thread]

def acquired (callers : Callers Thread) (state : Thread) (lockId : Int64) : Callers Thread :=
  { callers with
    lastObtained := Function.update callers.lastObtained lockId (some state)
    holds := assign callers.holds state lockId true }

def refusal (callers : Callers Thread) (state : Thread) (lockId : Int64) : Callers Thread :=
  { callers with
    refused := assign callers.refused state lockId (callers.refused state lockId + 1)
    blockedOn := Function.update callers.blockedOn state (some lockId) }

def handOff (callers : Callers Thread) (state : Thread) (lockId : Int64) : Callers Thread :=
  { acquired callers state lockId with
    returned := assign callers.returned state lockId (callers.returned state lockId + 1)
    blockedOn := Function.update callers.blockedOn state none }

/-- One call. Only the thread that last obtained a lock may release it; a try is always allowed. -/
def step (callers : Callers Thread) : Call Thread → Option (Callers Thread)
  | .tryAcquiringLock state lockId =>
    let result := tryAcquiringLock callers.registry state lockId
    let after := { callers with registry := result.2 }
    some (if result.1 then acquired after state lockId else refusal after state lockId)
  | .releaseAndGetNext state lockId =>
    if callers.lastObtained lockId = some state then
      let result := releaseAndGetNext callers.registry lockId
      let after := { callers with registry := result.2, holds := assign callers.holds state lockId false }
      some (match result.1 with
        | none => after
        | some next => handOff after next lockId)
    else none

/-- The caller is not waiting for a lock it was refused. -/
def Silent (callers : Callers Thread) (call : Call Thread) : Prop := callers.blockedOn call.caller = none

instance (callers : Callers Thread) (call : Call Thread) : Decidable (Silent callers call) :=
  inferInstanceAs (Decidable (callers.blockedOn call.caller = none))

/-- At most one thread owns each lock. -/
def OneOwner (callers : Callers Thread) : Prop :=
  ∀ first second lockId, callers.holds first lockId = true → callers.holds second lockId = true → first = second

/-- Each refused call stands in one place of its lock's list until one release returns it. -/
def Counted (callers : Callers Thread) : Prop := ∀ state lockId,
  (contended callers.registry lockId).count state + callers.returned state lockId = callers.refused state lockId

/-- From the answer that gives a lock to a thread to its release by that thread the monitor
    is locked, no try succeeds and the thread keeps the lock. -/
structure LockedWhileHeld (callers : Callers Thread) : Prop where
  locked : ∀ state lockId, callers.holds state lockId = true → locked callers.registry lockId = true
  refused : ∀ state other lockId, callers.holds state lockId = true →
    (tryAcquiringLock callers.registry other lockId).1 = false
  kept : ∀ state lockId call next, callers.holds state lockId = true → step callers call = some next →
    call ≠ .releaseAndGetNext state lockId → next.holds state lockId = true
  handed : ∀ state other lockId next, step callers (.releaseAndGetNext state lockId) = some next →
    (releaseAndGetNext callers.registry lockId).1 = some other → next.holds other lockId = true

/-- A thread that waits for a lock stands once in the list of that lock and in no other list,
    and leaves it only when a release of that lock returns it. -/
structure StandsOnce (callers : Callers Thread) : Prop where
  once : ∀ state lockId, callers.blockedOn state = some lockId →
    (contended callers.registry lockId).count state = 1 ∧
      ∀ other, other ≠ lockId → state ∉ contended callers.registry other
  nowhere : ∀ state, callers.blockedOn state = none → ∀ lockId, state ∉ contended callers.registry lockId
  leaves : ∀ state lockId call next, callers.blockedOn state = some lockId → Silent callers call →
    step callers call = some next → next.blockedOn state = some lockId ∨
      (∃ owner, call = .releaseAndGetNext owner lockId) ∧
        (releaseAndGetNext callers.registry lockId).1 = some state ∧ next.blockedOn state = none

/-- Every step is one of four: a grant, a refusal, a release of a lock nobody waits for, or
    a hand-off to the thread contended last. -/
theorem step_cases {callers next : Callers Thread} {call : Call Thread} (stepped : step callers call = some next) :
    (∃ state lockId, call = .tryAcquiringLock state lockId ∧ locked callers.registry lockId = false ∧
      next = acquired { callers with registry := (tryAcquiringLock callers.registry state lockId).2 } state lockId) ∨
    (∃ state lockId, call = .tryAcquiringLock state lockId ∧ locked callers.registry lockId = true ∧
      next = refusal { callers with registry := (tryAcquiringLock callers.registry state lockId).2 } state lockId) ∨
    (∃ state lockId, call = .releaseAndGetNext state lockId ∧ callers.lastObtained lockId = some state ∧
      contended callers.registry lockId = [] ∧
      next = { callers with
        registry := (releaseAndGetNext callers.registry lockId).2
        holds := assign callers.holds state lockId false }) ∨
    (∃ state lockId other, call = .releaseAndGetNext state lockId ∧ callers.lastObtained lockId = some state ∧
      (contended callers.registry lockId).getLast? = some other ∧
      next = handOff { callers with
        registry := (releaseAndGetNext callers.registry lockId).2
        holds := assign callers.holds state lockId false } other lockId) := by
  cases call with
  | tryAcquiringLock state lockId =>
    have result := tryAcquiringLock_result callers.registry state lockId
    cases flag : locked callers.registry lockId with
    | false =>
      refine .inl ⟨state,lockId,rfl,flag,?_⟩
      simpa [step,result,flag] using stepped.symm
    | true =>
      refine .inr (.inl ⟨state,lockId,rfl,flag,?_⟩)
      simpa [step,result,flag] using stepped.symm
  | releaseAndGetNext state lockId =>
    have result := releaseAndGetNext_result callers.registry lockId
    by_cases last : callers.lastObtained lockId = some state
    · cases waiting : (contended callers.registry lockId).getLast? with
      | none =>
        refine .inr (.inr (.inl ⟨state,lockId,rfl,last,List.getLast?_eq_none_iff.mp waiting,?_⟩))
        simpa [step,last,result,waiting] using stepped.symm
      | some other =>
        refine .inr (.inr (.inr ⟨state,lockId,other,rfl,last,waiting,?_⟩))
        simpa [step,last,result,waiting] using stepped.symm
    · simp [step,last] at stepped

/-- How the flag, the list and the history agree on each lock. -/
private structure Accounted (callers : Callers Thread) : Prop where
  held : ∀ lockId, locked callers.registry lockId = true → ∃ state, callers.lastObtained lockId = some state ∧
    callers.holds state lockId = true
  alone : ∀ state lockId, callers.holds state lockId = true →
    callers.lastObtained lockId = some state ∧ locked callers.registry lockId = true
  idle : ∀ lockId, locked callers.registry lockId = false → contended callers.registry lockId = []
  counted : Counted callers

private theorem accounted_start : Accounted ({} : Callers Thread) where
  held := by simp [locked]
  alone := by simp
  idle := by simp [contended]
  counted := by simp [Counted,contended]

private theorem grant_accounted {callers : Callers Thread} (inv : Accounted callers) (state : Thread) (lockId : Int64)
    (free : locked callers.registry lockId = false) :
    Accounted (acquired { callers with registry := (tryAcquiringLock callers.registry state lockId).2 } state lockId) where
  held lock isLocked := by
    by_cases same : lock = lockId
    · exact ⟨state,by simp [acquired,same],by simp [acquired,assign,same]⟩
    · obtain ⟨owner,last,holds⟩ := inv.held lock (by simpa [acquired,tryAcquiringLock_locked,same] using isLocked)
      exact ⟨owner,by simpa [acquired,same] using last,by simpa [acquired,assign,same] using holds⟩
  alone thread lock holds := by
    by_cases same : lock = lockId
    · subst same
      by_cases mine : thread = state
      · simp [acquired,tryAcquiringLock_locked,mine]
      · have before := (inv.alone thread lock (by simpa [acquired,assign,mine] using holds)).2
        simp [free] at before
    · have before := inv.alone thread lock (by simpa [acquired,assign,same] using holds)
      simpa [acquired,same,tryAcquiringLock_locked] using before
  idle lock isFree := by
    have before : locked callers.registry lock = false := by
      by_cases same : lock = lockId <;> simp_all [acquired,tryAcquiringLock_locked]
    simpa [acquired,tryAcquiringLock_contended,free] using inv.idle lock before
  counted thread lock := by
    simpa [acquired,tryAcquiringLock_contended,free] using inv.counted thread lock

private theorem refusal_accounted {callers : Callers Thread} (inv : Accounted callers) (state : Thread) (lockId : Int64)
    (isLocked : locked callers.registry lockId = true) :
    Accounted (refusal { callers with registry := (tryAcquiringLock callers.registry state lockId).2 } state lockId) where
  held lock lockedAfter := by
    have before : locked callers.registry lock = true := by
      by_cases same : lock = lockId <;> simp_all [refusal,tryAcquiringLock_locked]
    simpa [refusal] using inv.held lock before
  alone thread lock holds := by
    have before := inv.alone thread lock holds
    simpa [refusal,tryAcquiringLock_locked,before.2] using before.1
  idle lock isFree := by
    have different : lock ≠ lockId := by
      rintro rfl
      simp [refusal,tryAcquiringLock_locked] at isFree
    have before := inv.idle lock (by simpa [refusal,tryAcquiringLock_locked,different] using isFree)
    simpa [refusal,tryAcquiringLock_contended,different] using before
  counted thread lock := by
    have before := inv.counted thread lock
    by_cases same : lock = lockId
    · subst same
      by_cases mine : thread = state
      · subst mine
        simp [refusal,assign,tryAcquiringLock_contended,isLocked]
        omega
      · simpa [refusal,assign,tryAcquiringLock_contended,isLocked,mine,List.count_append,
          List.count_singleton,Ne.symm mine] using before
    · simpa [refusal,assign,tryAcquiringLock_contended,same] using before

private theorem release_accounted {callers : Callers Thread} (inv : Accounted callers) (state : Thread) (lockId : Int64)
    (last : callers.lastObtained lockId = some state) (empty : contended callers.registry lockId = []) :
    Accounted { callers with
      registry := (releaseAndGetNext callers.registry lockId).2
      holds := assign callers.holds state lockId false } where
  held lock lockedAfter := by
    have different : lock ≠ lockId := by
      rintro rfl
      simp [releaseAndGetNext_locked,empty] at lockedAfter
    have before := inv.held lock (by simpa [releaseAndGetNext_locked,different] using lockedAfter)
    simpa [assign,different] using before
  alone thread lock holds := by
    have different : lock ≠ lockId := by
      rintro rfl
      by_cases mine : thread = state
      · simp [assign,mine] at holds
      · have before := (inv.alone thread lock (by simpa [assign,mine] using holds)).1
        simp only [last,Option.some.injEq] at before
        exact mine before.symm
    have before := inv.alone thread lock (by simpa [assign,different] using holds)
    simpa [releaseAndGetNext_locked,different] using before
  idle lock isFree := by
    by_cases same : lock = lockId
    · simp [releaseAndGetNext_contended,same,empty]
    · have before := inv.idle lock (by simpa [releaseAndGetNext_locked,same] using isFree)
      simpa [releaseAndGetNext_contended,same] using before
  counted thread lock := by
    have before := inv.counted thread lock
    by_cases same : lock = lockId
    · subst same
      simpa [releaseAndGetNext_contended,empty] using before
    · simpa [releaseAndGetNext_contended,same] using before

/-- Taking the last element away takes one occurrence of it away. -/
theorem count_of_last {values : List Thread} {last : Thread} (found : values.getLast? = some last)
    (value : Thread) : values.count value = values.dropLast.count value + if value = last then 1 else 0 := by
  obtain ⟨front,rfl⟩ := List.getLast?_eq_some_iff.mp found
  by_cases same : value = last
  · simp [same]
  · simp [same,List.count_append,List.count_singleton,Ne.symm same]

private theorem handOff_accounted {callers : Callers Thread} (inv : Accounted callers) (state other : Thread)
    (lockId : Int64) (last : callers.lastObtained lockId = some state)
    (waiting : (contended callers.registry lockId).getLast? = some other) :
    Accounted (handOff { callers with
      registry := (releaseAndGetNext callers.registry lockId).2
      holds := assign callers.holds state lockId false } other lockId) := by
  have filled : contended callers.registry lockId ≠ [] := by
    rintro empty
    simp [empty] at waiting
  have isLocked : locked callers.registry lockId = true := by
    by_contra isFree
    exact filled (inv.idle lockId (by simpa using isFree))
  refine ⟨fun lock lockedAfter => ?_,fun thread lock holds => ?_,fun lock isFree => ?_,fun thread lock => ?_⟩
  · by_cases same : lock = lockId
    · exact ⟨other,by simp [handOff,acquired,same],by simp [handOff,acquired,assign,same]⟩
    · have before := inv.held lock (by
        simpa [handOff,acquired,releaseAndGetNext_locked,same] using lockedAfter)
      simpa [handOff,acquired,assign,same] using before
  · by_cases same : lock = lockId
    · subst same
      by_cases next : thread = other
      · simp [handOff,acquired,releaseAndGetNext_locked,filled,isLocked,next]
      · by_cases mine : thread = state
        · subst mine
          simp [handOff,acquired,assign,next] at holds
        · have before := (inv.alone thread lock (by simpa [handOff,acquired,assign,next,mine] using holds)).1
          simp only [last,Option.some.injEq] at before
          exact absurd before.symm mine
    · have before := inv.alone thread lock (by simpa [handOff,acquired,assign,same] using holds)
      simpa [handOff,acquired,releaseAndGetNext_locked,same] using before
  · have different : lock ≠ lockId := by
      rintro rfl
      simp [handOff,acquired,releaseAndGetNext_locked,filled,isLocked] at isFree
    have before := inv.idle lock (by simpa [handOff,acquired,releaseAndGetNext_locked,different] using isFree)
    simpa [handOff,acquired,releaseAndGetNext_contended,different] using before
  · have before := inv.counted thread lock
    by_cases same : lock = lockId
    · subst same
      have split := count_of_last waiting thread
      by_cases next : thread = other
      · simp_all [handOff,acquired,assign,releaseAndGetNext_contended]
        omega
      · simp_all [handOff,acquired,assign,releaseAndGetNext_contended]
    · simpa [handOff,acquired,assign,releaseAndGetNext_contended,same] using before

private theorem step_accounted {callers next : Callers Thread} {call : Call Thread} (inv : Accounted callers)
    (stepped : step callers call = some next) : Accounted next := by
  rcases step_cases stepped with ⟨state,lockId,-,free,rfl⟩ | ⟨state,lockId,-,isLocked,rfl⟩ |
    ⟨state,lockId,-,last,empty,rfl⟩ | ⟨state,lockId,other,-,last,waiting,rfl⟩
  · exact grant_accounted inv state lockId free
  · exact refusal_accounted inv state lockId isLocked
  · exact release_accounted inv state lockId last empty
  · exact handOff_accounted inv state other lockId last waiting

/-- Each thread stands once in the list of the lock it waits for, and nowhere else. -/
private def Placed (callers : Callers Thread) : Prop := ∀ state lockId,
  (contended callers.registry lockId).count state = if callers.blockedOn state = some lockId then 1 else 0

private theorem step_placed {callers next : Callers Thread} {call : Call Thread} (inv : Placed callers)
    (silent : Silent callers call) (stepped : step callers call = some next) : Placed next := by
  rcases step_cases stepped with ⟨state,lockId,rfl,free,rfl⟩ | ⟨state,lockId,rfl,isLocked,rfl⟩ |
    ⟨state,lockId,rfl,last,empty,rfl⟩ | ⟨state,lockId,other,rfl,last,waiting,rfl⟩
  · intro thread lock
    change (contended (tryAcquiringLock callers.registry state lockId).2 lock).count thread =
      if callers.blockedOn thread = some lock then 1 else 0
    simpa [tryAcquiringLock_contended,free] using inv thread lock
  · intro thread lock
    have before := inv thread lock
    have outside : callers.blockedOn state = none := silent
    by_cases mine : thread = state
    · subst mine
      by_cases same : lock = lockId
      · simp_all [refusal,tryAcquiringLock_contended]
      · simp_all [refusal,tryAcquiringLock_contended,Ne.symm same]
    · by_cases same : lock = lockId
      · simpa [refusal,tryAcquiringLock_contended,same,isLocked,mine,List.count_append,
          List.count_singleton,Ne.symm mine] using same ▸ before
      · simpa [refusal,tryAcquiringLock_contended,same,mine] using before
  · intro thread lock
    have before := inv thread lock
    by_cases same : lock = lockId
    · subst same
      simpa [releaseAndGetNext_contended,empty] using before
    · simpa [releaseAndGetNext_contended,same] using before
  · intro thread lock
    have before := inv thread lock
    -- the returned thread waits for this very lock, so its one place goes with it
    have waits : callers.blockedOn other = some lockId := by
      have place := inv other lockId
      have member : other ∈ contended callers.registry lockId := List.mem_of_getLast? waiting
      by_contra elsewhere
      rw [if_neg elsewhere] at place
      exact List.count_eq_zero.mp place member
    have split := count_of_last waiting thread
    by_cases next : thread = other
    · subst next
      by_cases same : lock = lockId
      · subst same
        simp_all [handOff,acquired,releaseAndGetNext_contended]
      · simp_all [handOff,acquired,releaseAndGetNext_contended,Ne.symm same]
    · by_cases same : lock = lockId
      · subst same
        simp_all [handOff,acquired,releaseAndGetNext_contended]
      · simp_all [handOff,acquired,releaseAndGetNext_contended]

private theorem stands_of_placed {callers : Callers Thread} (inv : Placed callers) : StandsOnce callers where
  once state lockId waits := by
    refine ⟨by simpa [waits] using inv state lockId,fun other different => ?_⟩
    have place := inv state other
    simp only [waits,Option.some.injEq,Ne.symm different,if_false] at place
    exact List.count_eq_zero.mp place
  nowhere state idle lockId := by
    have place := inv state lockId
    simp only [idle,reduceCtorEq,if_false] at place
    exact List.count_eq_zero.mp place
  leaves state lockId call next waits silent stepped := by
    rcases step_cases stepped with ⟨caller,lock,rfl,free,rfl⟩ | ⟨caller,lock,rfl,isLocked,rfl⟩ |
      ⟨caller,lock,rfl,last,empty,rfl⟩ | ⟨caller,lock,other,rfl,last,waiting,rfl⟩
    · exact .inl (by simpa [acquired] using waits)
    · have different : state ≠ caller := by
        rintro rfl
        simp [Silent,Call.caller,waits] at silent
      exact .inl (by simpa [refusal,different] using waits)
    · exact .inl waits
    · by_cases chosen : state = other
      · subst chosen
        have member : state ∈ contended callers.registry lock := List.mem_of_getLast? waiting
        have same : lock = lockId := by
          by_contra different
          have place := inv state lock
          simp only [waits,Option.some.injEq,Ne.symm different,if_false] at place
          exact List.count_eq_zero.mp place member
        subst same
        exact .inr ⟨⟨caller,rfl⟩,by rw [releaseAndGetNext_result,waiting],by simp [handOff]⟩
      · exact .inl (by simpa [handOff,acquired,chosen] using waits)

private theorem held_of_accounted {callers : Callers Thread} (inv : Accounted callers) : LockedWhileHeld callers where
  locked state lockId holds := (inv.alone state lockId holds).2
  refused state other lockId holds := by
    rw [tryAcquiringLock_result,(inv.alone state lockId holds).2]
    rfl
  kept state lockId call next holds stepped foreign := by
    have owner := inv.alone state lockId holds
    rcases step_cases stepped with ⟨caller,lock,rfl,free,rfl⟩ | ⟨caller,lock,rfl,isLocked,rfl⟩ |
      ⟨caller,lock,rfl,last,empty,rfl⟩ | ⟨caller,lock,other,rfl,last,waiting,rfl⟩
    · simp [acquired,assign,holds]
    · simpa [refusal] using holds
    · have different : ¬ (state = caller ∧ lockId = lock) := by
        rintro ⟨rfl,rfl⟩
        exact foreign rfl
      simpa [assign,different] using holds
    · have different : ¬ (state = caller ∧ lockId = lock) := by
        rintro ⟨rfl,rfl⟩
        exact foreign rfl
      simp [handOff,acquired,assign,different,holds]
  handed state other lockId next stepped chosen := by
    rcases step_cases stepped with ⟨caller,lock,same,-⟩ | ⟨caller,lock,same,-⟩ |
      ⟨caller,lock,same,-,empty,-⟩ | ⟨caller,lock,last,same,-,waiting,rfl⟩
    · cases same
    · cases same
    · cases same
      simp [releaseAndGetNext_result,empty] at chosen
    · cases same
      rw [releaseAndGetNext_result,waiting,Option.some.injEq] at chosen
      simp [handOff,acquired,assign,chosen]

/-- In every order of calls each lock has one owner, every refused call keeps exactly one place
    until it is returned, and the monitor stays locked through each hand-off. Where refused
    threads make no call until they are returned, each of them stands in exactly one list, once. -/
theorem no_waiter_lost (calls : List (Call Thread)) (callers : Callers Thread)
    (executed : Runs.run step {} calls = some callers) :
    OneOwner callers ∧ Counted callers ∧ LockedWhileHeld callers ∧
      (Runs.Meets step Silent {} calls → StandsOnce callers) := by
  have inv : Accounted callers :=
    Runs.invariant (fun _ _ _ before stepped => step_accounted before stepped) accounted_start executed
  refine ⟨fun first second lockId held alsoHeld => ?_,inv.counted,held_of_accounted inv,fun silent => ?_⟩
  · have owner := (inv.alone first lockId held).1
    rw [(inv.alone second lockId alsoHeld).1,Option.some.injEq] at owner
    exact owner.symm
  · have start : Placed ({} : Callers Thread) := by simp [Placed,contended]
    exact stands_of_placed (Runs.invariant_of_meets
      (fun _ _ _ before quiet stepped => step_placed before quiet stepped) start silent executed)

end Callers

/-- Thread 1 takes lock 5, thread 2 is refused and then handed the lock, thread 3 is refused. -/
private def handOffCalls : List (Call Nat) :=
  [.tryAcquiringLock 1 5,.tryAcquiringLock 2 5,.releaseAndGetNext 1 5,.tryAcquiringLock 3 5]

theorem no_waiter_lost_hand_off : ∃ callers : Callers Nat, Runs.run step {} handOffCalls = some callers ∧
    callers.holds 2 5 = true ∧ callers.blockedOn 3 = some 5 ∧ OneOwner callers ∧ Counted callers ∧
      LockedWhileHeld callers ∧ StandsOnce callers := by
  obtain ⟨callers,executed⟩ : ∃ callers : Callers Nat, Runs.run step {} handOffCalls = some callers := ⟨_,rfl⟩
  have law := no_waiter_lost handOffCalls callers executed
  have ends : callers.holds 2 5 = true ∧ callers.blockedOn 3 = some 5 := by
    cases executed
    decide
  exact ⟨callers,executed,ends.1,ends.2,law.1,law.2.1,law.2.2.1,law.2.2.2 (by decide)⟩

/-- A refused thread that tries a second lock before it is handed the first stands in two lists. -/
theorem refused_twice_waits_twice : ∃ (calls : List (Call Nat)) (callers : Callers Nat),
    Runs.run step {} calls = some callers ∧
      2 ∈ contended callers.registry 5 ∧ 2 ∈ contended callers.registry 6 :=
  ⟨[.tryAcquiringLock 1 5,.tryAcquiringLock 1 6,.tryAcquiringLock 2 5,.tryAcquiringLock 2 6],_,rfl,
    by decide,by decide⟩

end Vexjine.LockRegistry
