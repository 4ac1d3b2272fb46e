import Vexjine.LockRegistry

/-!
# The reentrant lock registry

`ReentrantLockRegistry` with its owner and entry counter, the callers that
respect what they were answered, and mutual exclusion over their runs. The
hand-off names the next owner but leaves the monitor flag down, so the law
holds exactly for the runs in which no third thread tries the lock in between.
-/

namespace Vexjine.ReentrantLockRegistry
open Vexjine.LockRegistry (Registry LockRegistryInfo assign Call)
set_option linter.unusedSimpArgs false

/-- `LockRegistryInfo` with the owning thread and the count of its entries, an `int`. -/
structure ReentrantLockRegistryInfo (Thread : Type) extends LockRegistryInfo Thread where
  owner : Option Thread
  counter : Int32

section Registry
variable {Thread : Type}

namespace ReentrantLockRegistryInfo

/-- The constructor: locked, entered once by the given thread. -/
def new (state : Thread) : ReentrantLockRegistryInfo Thread := { owner := some state,counter := 1 }

def enterMonitor (info : ReentrantLockRegistryInfo Thread) (state : Thread) : ReentrantLockRegistryInfo Thread :=
  { info with monitorLocked := true,owner := some state,counter := info.counter + 1 }

def releaseMonitor (info : ReentrantLockRegistryInfo Thread) : Bool × ReentrantLockRegistryInfo Thread :=
  let counter := info.counter - 1
  if counter = 0 then (true,{ info with monitorLocked := false,owner := none,counter })
  else (false,{ info with counter })

def setNextOwner (info : ReentrantLockRegistryInfo Thread) (state : Thread) : ReentrantLockRegistryInfo Thread :=
  { info with owner := some state,counter := 1 }

def isCurrentOwnerThread [DecidableEq Thread] (info : ReentrantLockRegistryInfo Thread) (state : Thread) : Bool :=
  decide (info.owner = some state)

def isMonitorFree (info : ReentrantLockRegistryInfo Thread) : Bool := !info.monitorLocked

def blockOnMonitor (info : ReentrantLockRegistryInfo Thread) (state : Thread) : ReentrantLockRegistryInfo Thread :=
  { info with toLockRegistryInfo := info.toLockRegistryInfo.blockOnMonitor state }

end ReentrantLockRegistryInfo

/-- `ReentrantLockRegistry::tryAcquiringLock`. -/
def tryAcquiringLock [DecidableEq Thread] (registry : Registry (ReentrantLockRegistryInfo Thread)) (state : Thread)
    (lockId : Int64) : Bool × Registry (ReentrantLockRegistryInfo Thread) :=
  match registry lockId with
  | some info =>
    if info.isMonitorFree || info.isCurrentOwnerThread state then
      (true,Function.update registry lockId (some (info.enterMonitor state)))
    else (false,Function.update registry lockId (some (info.blockOnMonitor state)))
  | none => (true,Function.update registry lockId (some (.new state)))

/-- `ReentrantLockRegistry::releaseAndGetNext`; the missing entry is an assertion that the
    release build drops. -/
def releaseAndGetNext (registry : Registry (ReentrantLockRegistryInfo Thread)) (lockId : Int64) :
    Option Thread × Registry (ReentrantLockRegistryInfo Thread) :=
  match registry lockId with
  | some info =>
    let (released,after) := info.releaseMonitor
    match released,after.threadsContendedOnLock.getLast? with
    | true,some state =>
      (some state,Function.update registry lockId
        (some ({ after with threadsContendedOnLock := after.threadsContendedOnLock.dropLast }.setNextOwner state)))
    | _,_ => (none,Function.update registry lockId (some after))
  | none => (none,registry)

/-- The thread a lock's entry names as its owner. -/
def ownerOf (registry : Registry (ReentrantLockRegistryInfo Thread)) (lockId : Int64) : Option Thread :=
  (registry lockId).bind ReentrantLockRegistryInfo.owner

def counterOf (registry : Registry (ReentrantLockRegistryInfo Thread)) (lockId : Int64) : Int32 :=
  ((registry lockId).map ReentrantLockRegistryInfo.counter).getD 0

def contended (registry : Registry (ReentrantLockRegistryInfo Thread)) (lockId : Int64) : List Thread :=
  ((registry lockId).map fun info => info.threadsContendedOnLock).getD []

def locked (registry : Registry (ReentrantLockRegistryInfo Thread)) (lockId : Int64) : Bool :=
  ((registry lockId).map fun info => info.monitorLocked).getD false

/-- The lock was handed to another thread, whose flag the hand-off left down. -/
def handedToAnother [DecidableEq Thread] (registry : Registry (ReentrantLockRegistryInfo Thread)) (state : Thread)
    (lockId : Int64) : Bool :=
  match registry lockId with
  | some info => info.isMonitorFree && info.owner.isSome && !info.isCurrentOwnerThread state
  | none => false

/-- One more entry of the owner would overflow the counter. -/
def counterExhausted [DecidableEq Thread] (registry : Registry (ReentrantLockRegistryInfo Thread)) (state : Thread)
    (lockId : Int64) : Bool :=
  match registry lockId with
  | some info => info.isCurrentOwnerThread state && decide (info.counter = Int32.maxValue)
  | none => false

/-- One entry of the registry overwritten. -/
def write (registry : Registry (ReentrantLockRegistryInfo Thread)) (lockId : Int64) (threads : List Thread)
    (flag : Bool) (owner : Option Thread) (counter : Int32) : Registry (ReentrantLockRegistryInfo Thread) :=
  Function.update registry lockId (some ⟨⟨threads,flag⟩,owner,counter⟩)

section Write
variable (registry : Registry (ReentrantLockRegistryInfo Thread)) (lockId other : Int64) (threads : List Thread)
  (flag : Bool) (owner : Option Thread) (counter : Int32)

@[simp] theorem ownerOf_write : ownerOf (write registry lockId threads flag owner counter) other =
    if other = lockId then owner else ownerOf registry other := by
  by_cases same : other = lockId <;> simp [ownerOf,write,same]

@[simp] theorem counterOf_write : counterOf (write registry lockId threads flag owner counter) other =
    if other = lockId then counter else counterOf registry other := by
  by_cases same : other = lockId <;> simp [counterOf,write,same]

@[simp] theorem contended_write : contended (write registry lockId threads flag owner counter) other =
    if other = lockId then threads else contended registry other := by
  by_cases same : other = lockId <;> simp [contended,write,same]

@[simp] theorem locked_write : locked (write registry lockId threads flag owner counter) other =
    if other = lockId then flag else locked registry other := by
  by_cases same : other = lockId <;> simp [locked,write,same]

end Write

/-- A try enters a monitor that is free or owned by the caller. -/
theorem tryAcquiringLock_enters [DecidableEq Thread] {registry : Registry (ReentrantLockRegistryInfo Thread)}
    {state : Thread} {lockId : Int64}
    (enters : locked registry lockId = false ∨ ownerOf registry lockId = some state) :
    tryAcquiringLock registry state lockId = (true,write registry lockId (contended registry lockId) true
      (some state) (counterOf registry lockId + 1)) := by
  cases found : registry lockId with
  | none => simp [tryAcquiringLock,found,write,contended,counterOf,ReentrantLockRegistryInfo.new]
  | some info =>
    have admitted : (info.isMonitorFree || info.isCurrentOwnerThread state) = true := by
      simpa [locked,ownerOf,found,ReentrantLockRegistryInfo.isMonitorFree,
        ReentrantLockRegistryInfo.isCurrentOwnerThread] using enters
    simp [tryAcquiringLock,found,admitted,write,contended,counterOf,ReentrantLockRegistryInfo.enterMonitor]

/-- A try blocks on a locked monitor of another thread. -/
theorem tryAcquiringLock_blocks [DecidableEq Thread] {registry : Registry (ReentrantLockRegistryInfo Thread)}
    {state : Thread} {lockId : Int64}
    (isLocked : locked registry lockId = true) (foreign : ownerOf registry lockId ≠ some state) :
    tryAcquiringLock registry state lockId = (false,write registry lockId (contended registry lockId ++ [state]) true
      (ownerOf registry lockId) (counterOf registry lockId)) := by
  cases found : registry lockId with
  | none => simp [locked,found] at isLocked
  | some info =>
    have flag : info.monitorLocked = true := by simpa [locked,found] using isLocked
    have stranger : info.owner ≠ some state := by simpa [ownerOf,found] using foreign
    simp [tryAcquiringLock,found,flag,stranger,write,contended,counterOf,ownerOf,
      ReentrantLockRegistryInfo.isMonitorFree,ReentrantLockRegistryInfo.isCurrentOwnerThread,
      ReentrantLockRegistryInfo.blockOnMonitor,LockRegistryInfo.blockOnMonitor]

/-- A release of an inner entry only lowers the counter. -/
theorem releaseAndGetNext_inner {registry : Registry (ReentrantLockRegistryInfo Thread)} {lockId : Int64}
    (present : ownerOf registry lockId ≠ none) (inner : counterOf registry lockId - 1 ≠ 0) :
    releaseAndGetNext registry lockId = (none,write registry lockId (contended registry lockId)
      (locked registry lockId) (ownerOf registry lockId) (counterOf registry lockId - 1)) := by
  cases found : registry lockId with
  | none => simp [ownerOf,found] at present
  | some info =>
    have more : info.counter - 1 ≠ 0 := by simpa [counterOf,found] using inner
    simp [releaseAndGetNext,found,more,write,contended,locked,ownerOf,counterOf,
      ReentrantLockRegistryInfo.releaseMonitor]

/-- The last release frees a monitor nobody waits for. -/
theorem releaseAndGetNext_frees {registry : Registry (ReentrantLockRegistryInfo Thread)} {lockId : Int64}
    (present : ownerOf registry lockId ≠ none) (outer : counterOf registry lockId - 1 = 0)
    (empty : contended registry lockId = []) :
    releaseAndGetNext registry lockId = (none,write registry lockId [] false none 0) := by
  cases found : registry lockId with
  | none => simp [ownerOf,found] at present
  | some info =>
    have zero : info.counter - 1 = 0 := by simpa [counterOf,found] using outer
    have nobody : info.threadsContendedOnLock = [] := by simpa [contended,found] using empty
    simp [releaseAndGetNext,found,zero,nobody,write,ReentrantLockRegistryInfo.releaseMonitor]

/-- The last release names the thread contended last as the owner, with the flag down. -/
theorem releaseAndGetNext_hands {registry : Registry (ReentrantLockRegistryInfo Thread)} {lockId : Int64}
    {heir : Thread} (present : ownerOf registry lockId ≠ none) (outer : counterOf registry lockId - 1 = 0)
    (waiting : (contended registry lockId).getLast? = some heir) :
    releaseAndGetNext registry lockId = (some heir,write registry lockId (contended registry lockId).dropLast false
      (some heir) 1) := by
  cases found : registry lockId with
  | none => simp [ownerOf,found] at present
  | some info =>
    have zero : info.counter - 1 = 0 := by simpa [counterOf,found] using outer
    have last : info.threadsContendedOnLock.getLast? = some heir := by simpa [contended,found] using waiting
    simp [releaseAndGetNext,found,zero,last,write,contended,ReentrantLockRegistryInfo.releaseMonitor,
      ReentrantLockRegistryInfo.setNextOwner]

end Registry

/-! ## Callers -/

/-- The registry beside its history: how often each thread acquired a lock without releasing
    it since, and the lock a refused thread still waits for. -/
structure Callers (Thread : Type) where
  registry : Registry (ReentrantLockRegistryInfo Thread) := fun _ => none
  depth : Thread → Int64 → Nat := fun _ _ => 0
  blockedOn : Thread → Option Int64 := fun _ => none

section Callers
variable {Thread : Type}

/-- The history after an answer that gives the lock to the thread once more. -/
def entered [DecidableEq Thread] (callers : Callers Thread) (state : Thread) (lockId : Int64) : Callers Thread :=
  { callers with
    depth := assign callers.depth state lockId (callers.depth state lockId + 1)
    blockedOn := Function.update callers.blockedOn state none }

/-- One call. A blocked thread makes none, and only a holder of a lock releases it. -/
def step [DecidableEq Thread] (callers : Callers Thread) : Call Thread → Option (Callers Thread)
  | .tryAcquiringLock state lockId =>
    if callers.blockedOn state = none then
      let result := tryAcquiringLock callers.registry state lockId
      let after := { callers with registry := result.2 }
      some (if result.1 then entered after state lockId
        else { after with blockedOn := Function.update callers.blockedOn state (some lockId) })
    else none
  | .releaseAndGetNext state lockId =>
    if callers.blockedOn state = none ∧ 0 < callers.depth state lockId then
      let result := releaseAndGetNext callers.registry lockId
      let after := { callers with
        registry := result.2
        depth := assign callers.depth state lockId (callers.depth state lockId - 1) }
      some (match result.1 with
        | none => after
        | some next => entered after next lockId)
    else none

/-- No try of a third thread between a hand-off and the next call of the new owner, and no
    entry past the largest counter. -/
def Orderly [DecidableEq Thread] (callers : Callers Thread) : Call Thread → Prop
  | .tryAcquiringLock state lockId => handedToAnother callers.registry state lockId = false ∧
      counterExhausted callers.registry state lockId = false
  | .releaseAndGetNext _ _ => True

instance [DecidableEq Thread] (callers : Callers Thread) : (call : Call Thread) → Decidable (Orderly callers call)
  | .tryAcquiringLock state lockId => inferInstanceAs (Decidable (handedToAnother callers.registry state lockId = false ∧
      counterExhausted callers.registry state lockId = false))
  | .releaseAndGetNext _ _ => .isTrue trivial

/-- The law of mutual exclusion in one state and for the calls that can come next. -/
structure MutualExclusion [DecidableEq Thread] (callers : Callers Thread) : Prop where
  /-- At most one thread holds a lock. -/
  exclusive : ∀ first second lockId, 0 < callers.depth first lockId → 0 < callers.depth second lockId → first = second
  /-- A holder enters again at once. -/
  reentrant : ∀ state lockId, 0 < callers.depth state lockId → (tryAcquiringLock callers.registry state lockId).1 = true
  /-- Any other thread is refused, unless it comes between a hand-off and the owner's next call. -/
  refused : ∀ state other lockId, 0 < callers.depth state lockId → other ≠ state →
    ((tryAcquiringLock callers.registry other lockId).1 = false ↔
      Orderly callers (.tryAcquiringLock other lockId))
  /-- A release that is not the last one keeps the lock and hands it to nobody. -/
  kept : ∀ state lockId next, step callers (.releaseAndGetNext state lockId) = some next →
    1 < callers.depth state lockId → (releaseAndGetNext callers.registry lockId).1 = none ∧
      next.depth state lockId = callers.depth state lockId - 1
  /-- The last release hands the lock to one formerly blocked thread, or frees it when none waits. -/
  handed : ∀ state lockId next, step callers (.releaseAndGetNext state lockId) = some next →
    callers.depth state lockId = 1 →
    (∃ heir, (releaseAndGetNext callers.registry lockId).1 = some heir ∧ callers.blockedOn heir = some lockId ∧
      next.blockedOn heir = none ∧ next.depth heir lockId = 1 ∧
      ∀ other, other ≠ heir → next.depth other lockId = 0) ∨
    ((releaseAndGetNext callers.registry lockId).1 = none ∧ (∀ other, callers.blockedOn other ≠ some lockId) ∧
      ∀ other, next.depth other lockId = 0)

/-- The registry agrees with the history: the entry names the only holder and counts its
    entries, a free entry is clean, and the list holds each thread blocked on the lock once. -/
private structure Owned (callers : Callers Thread) : Prop where
  owner : ∀ lockId state, ownerOf callers.registry lockId = some state ↔ 0 < callers.depth state lockId
  counted : ∀ lockId state, ownerOf callers.registry lockId = some state →
    (counterOf callers.registry lockId).toInt = callers.depth state lockId
  idle : ∀ lockId, ownerOf callers.registry lockId = none → locked callers.registry lockId = false ∧
    counterOf callers.registry lockId = 0 ∧ contended callers.registry lockId = []
  nodup : ∀ lockId, (contended callers.registry lockId).Nodup
  waiting : ∀ lockId state, state ∈ contended callers.registry lockId ↔ callers.blockedOn state = some lockId

private theorem owned_start : Owned ({} : Callers Thread) := by
  constructor <;> simp [ownerOf,contended,locked,counterOf]

private theorem toInt_succ {counter : Int32} (below : counter ≠ Int32.maxValue) :
    (counter + 1).toInt = counter.toInt + 1 := by
  have largest : Int32.maxValue.toInt = 2147483647 := by decide
  have different : counter.toInt ≠ Int32.maxValue.toInt := fun same => below (Int32.toInt_inj.mp same)
  have lower := counter.le_toInt
  have upper := counter.toInt_le
  rw [Int32.toInt_add,show (1 : Int32).toInt = 1 from rfl,Int.bmod_eq_of_le] <;> omega

private theorem toInt_pred {counter : Int32} (positive : 0 < counter.toInt) :
    (counter - 1).toInt = counter.toInt - 1 := by
  have largest : Int32.maxValue.toInt = 2147483647 := by decide
  have upper := counter.toInt_le
  rw [Int32.toInt_sub,show (1 : Int32).toInt = 1 from rfl,Int.bmod_eq_of_le] <;> omega

private theorem last_iff {callers : Callers Thread} (inv : Owned callers) {state : Thread} {lockId : Int64}
    (holds : 0 < callers.depth state lockId) :
    counterOf callers.registry lockId - 1 = 0 ↔ callers.depth state lockId = 1 := by
  have counted := inv.counted lockId state ((inv.owner lockId state).mpr holds)
  have lower : (counterOf callers.registry lockId - 1).toInt = (counterOf callers.registry lockId).toInt - 1 :=
    toInt_pred (by omega)
  rw [← Int32.toInt_inj,lower,show (0 : Int32).toInt = 0 from rfl]
  omega

/-- Each step from an accounted state enters, blocks, leaves an inner entry, frees or hands on. -/
private theorem step_cases [DecidableEq Thread] {callers next : Callers Thread} {call : Call Thread} (inv : Owned callers)
    (stepped : step callers call = some next) :
    (∃ state lockId, call = .tryAcquiringLock state lockId ∧ callers.blockedOn state = none ∧
      (locked callers.registry lockId = false ∨ ownerOf callers.registry lockId = some state) ∧
      next = entered { callers with
        registry := write callers.registry lockId (contended callers.registry lockId) true (some state)
          (counterOf callers.registry lockId + 1) } state lockId) ∨
    (∃ state lockId, call = .tryAcquiringLock state lockId ∧ callers.blockedOn state = none ∧
      locked callers.registry lockId = true ∧ ownerOf callers.registry lockId ≠ some state ∧
      next = { callers with
        registry := write callers.registry lockId (contended callers.registry lockId ++ [state]) true
          (ownerOf callers.registry lockId) (counterOf callers.registry lockId)
        blockedOn := Function.update callers.blockedOn state (some lockId) }) ∨
    (∃ state lockId, call = .releaseAndGetNext state lockId ∧ 1 < callers.depth state lockId ∧
      (releaseAndGetNext callers.registry lockId).1 = none ∧
      next = { callers with
        registry := write callers.registry lockId (contended callers.registry lockId)
          (locked callers.registry lockId) (some state) (counterOf callers.registry lockId - 1)
        depth := assign callers.depth state lockId (callers.depth state lockId - 1) }) ∨
    (∃ state lockId, call = .releaseAndGetNext state lockId ∧ callers.depth state lockId = 1 ∧
      contended callers.registry lockId = [] ∧ (releaseAndGetNext callers.registry lockId).1 = none ∧
      next = { callers with
        registry := write callers.registry lockId [] false none 0
        depth := assign callers.depth state lockId 0 }) ∨
    (∃ state lockId heir, call = .releaseAndGetNext state lockId ∧ callers.depth state lockId = 1 ∧
      callers.blockedOn state = none ∧ (contended callers.registry lockId).getLast? = some heir ∧
      (releaseAndGetNext callers.registry lockId).1 = some heir ∧
      next = entered { callers with
        registry := write callers.registry lockId (contended callers.registry lockId).dropLast false (some heir) 1
        depth := assign callers.depth state lockId 0 } heir lockId) := by
  cases call with
  | tryAcquiringLock state lockId =>
    by_cases idle : callers.blockedOn state = none
    · by_cases enters : locked callers.registry lockId = false ∨ ownerOf callers.registry lockId = some state
      · refine .inl ⟨state,lockId,rfl,idle,enters,?_⟩
        simpa [step,idle,tryAcquiringLock_enters enters] using stepped.symm
      · push Not at enters
        have isLocked : locked callers.registry lockId = true := by simpa using enters.1
        refine .inr (.inl ⟨state,lockId,rfl,idle,isLocked,enters.2,?_⟩)
        simpa [step,idle,tryAcquiringLock_blocks isLocked enters.2] using stepped.symm
    · simp [step,idle] at stepped
  | releaseAndGetNext state lockId =>
    by_cases legal : callers.blockedOn state = none ∧ 0 < callers.depth state lockId
    · have owner := (inv.owner lockId state).mpr legal.2
      have present : ownerOf callers.registry lockId ≠ none := by simp [owner]
      have last := last_iff inv legal.2
      by_cases single : callers.depth state lockId = 1
      · cases waiting : (contended callers.registry lockId).getLast? with
        | none =>
          have empty := List.getLast?_eq_none_iff.mp waiting
          have released := releaseAndGetNext_frees present (last.mpr single) empty
          refine .inr (.inr (.inr (.inl ⟨state,lockId,rfl,single,empty,by rw [released],?_⟩)))
          simpa [step,legal,released,single] using stepped.symm
        | some heir =>
          have released := releaseAndGetNext_hands present (last.mpr single) waiting
          refine .inr (.inr (.inr (.inr ⟨state,lockId,heir,rfl,single,legal.1,waiting,by rw [released],?_⟩)))
          simpa [step,legal,released,single] using stepped.symm
      · have released := releaseAndGetNext_inner present (mt last.mp single)
        refine .inr (.inr (.inl ⟨state,lockId,rfl,by omega,by rw [released],?_⟩))
        simpa [step,legal,released,owner] using stepped.symm
    · simp only [step,if_neg legal,reduceCtorEq] at stepped

private theorem depth_zero {callers : Callers Thread} (inv : Owned callers) (state : Thread) (lockId : Int64)
    (other : ownerOf callers.registry lockId ≠ some state) : callers.depth state lockId = 0 :=
  Nat.eq_zero_of_not_pos fun holds => other ((inv.owner lockId state).mpr holds)

section Preservation
variable [DecidableEq Thread] {callers : Callers Thread} (inv : Owned callers)
include inv

private theorem enter_owned {state : Thread} {lockId : Int64} (idle : callers.blockedOn state = none)
    (own : ownerOf callers.registry lockId = none ∨ ownerOf callers.registry lockId = some state)
    (below : ownerOf callers.registry lockId = some state → counterOf callers.registry lockId ≠ Int32.maxValue) :
    Owned (entered { callers with
      registry := write callers.registry lockId (contended callers.registry lockId) true (some state)
        (counterOf callers.registry lockId + 1) } state lockId) := by
  have count : (counterOf callers.registry lockId + 1).toInt = callers.depth state lockId + 1 := by
    rcases own with nobody | mine
    · have zero := (inv.idle lockId nobody).2.1
      have none_ := depth_zero inv state lockId (by simp [nobody])
      simp [zero,none_]
    · rw [toInt_succ (below mine),inv.counted lockId state mine]
  have others : ∀ thread, thread ≠ state → callers.depth thread lockId = 0 := by
    intro thread different
    apply depth_zero inv
    rcases own with nobody | mine
    · simp [nobody]
    · simp [mine,Ne.symm different]
  constructor
  · intro lock thread
    by_cases same : lock = lockId
    · subst same
      by_cases mine : thread = state
      · simp [entered,assign,mine]
      · simp [entered,assign,mine,Ne.symm mine,others thread mine]
    · simpa [entered,assign,same] using inv.owner lock thread
  · intro lock thread owner
    by_cases same : lock = lockId
    · subst same
      have mine : state = thread := by simpa [entered] using owner
      simp [entered,assign,count,← mine]
    · simpa [entered,assign,same] using inv.counted lock thread (by simpa [entered,same] using owner)
  · intro lock nobody
    have different : lock ≠ lockId := by
      rintro rfl
      simp [entered] at nobody
    simpa [entered,different] using inv.idle lock (by simpa [entered,different] using nobody)
  · intro lock
    by_cases same : lock = lockId
    · simpa [entered,same] using inv.nodup lockId
    · simpa [entered,same] using inv.nodup lock
  · intro lock thread
    have before := inv.waiting lock thread
    by_cases same : lock = lockId <;> by_cases mine : thread = state <;> simp_all [entered]

private theorem block_owned {state : Thread} {lockId : Int64} (idle : callers.blockedOn state = none)
    (isLocked : locked callers.registry lockId = true) :
    Owned { callers with
      registry := write callers.registry lockId (contended callers.registry lockId ++ [state]) true
        (ownerOf callers.registry lockId) (counterOf callers.registry lockId)
      blockedOn := Function.update callers.blockedOn state (some lockId) } := by
  have absent : ∀ lock, state ∉ contended callers.registry lock := by
    intro lock member
    rw [inv.waiting lock state,idle] at member
    cases member
  constructor
  · intro lock thread
    by_cases same : lock = lockId
    · simpa [same] using inv.owner lockId thread
    · simpa [same] using inv.owner lock thread
  · intro lock thread owner
    by_cases same : lock = lockId
    · simpa [same] using inv.counted lockId thread (by simpa [same] using owner)
    · simpa [same] using inv.counted lock thread (by simpa [same] using owner)
  · intro lock nobody
    by_cases same : lock = lockId
    · have free := (inv.idle lockId (by simpa [same] using nobody)).1
      simp [isLocked] at free
    · simpa [same] using inv.idle lock (by simpa [same] using nobody)
  · intro lock
    by_cases same : lock = lockId
    · have fresh : ∀ member ∈ contended callers.registry lockId, member ≠ state := by
        rintro member inside rfl
        exact absent lockId inside
      simpa [same,List.nodup_append,inv.nodup lockId] using fresh
    · simpa [same] using inv.nodup lock
  · intro lock thread
    have before := inv.waiting lock thread
    by_cases mine : thread = state
    · subst mine
      by_cases same : lock = lockId
      · simp [same]
      · simp [same,Ne.symm same,absent lock]
    · by_cases same : lock = lockId
      · subst same
        simpa [mine] using before
      · simpa [same,mine] using before

private theorem leave_owned {state : Thread} {lockId : Int64} (inner : 1 < callers.depth state lockId) :
    Owned { callers with
      registry := write callers.registry lockId (contended callers.registry lockId)
        (locked callers.registry lockId) (some state) (counterOf callers.registry lockId - 1)
      depth := assign callers.depth state lockId (callers.depth state lockId - 1) } := by
  have owner := (inv.owner lockId state).mpr (by omega)
  have counted := inv.counted lockId state owner
  have lower : (counterOf callers.registry lockId - 1).toInt = (callers.depth state lockId - 1 : Nat) := by
    rw [toInt_pred (by omega),counted]
    omega
  constructor
  · intro lock thread
    by_cases same : lock = lockId
    · subst same
      by_cases mine : thread = state
      · simp [assign,mine]
        omega
      · have zero := depth_zero inv thread lock (by simp [owner,Ne.symm mine])
        simp [assign,mine,Ne.symm mine,zero]
    · simpa [assign,same] using inv.owner lock thread
  · intro lock thread owns
    by_cases same : lock = lockId
    · subst same
      have mine : state = thread := by simpa using owns
      simp [assign,lower,← mine]
    · simpa [assign,same] using inv.counted lock thread (by simpa [same] using owns)
  · intro lock nobody
    have different : lock ≠ lockId := by
      rintro rfl
      simp at nobody
    simpa [different] using inv.idle lock (by simpa [different] using nobody)
  · intro lock
    by_cases same : lock = lockId
    · simpa [same] using inv.nodup lockId
    · simpa [same] using inv.nodup lock
  · intro lock thread
    by_cases same : lock = lockId
    · simpa [same] using inv.waiting lockId thread
    · simpa [same] using inv.waiting lock thread

private theorem free_owned {state : Thread} {lockId : Int64} (single : callers.depth state lockId = 1)
    (empty : contended callers.registry lockId = []) :
    Owned { callers with
      registry := write callers.registry lockId [] false none 0
      depth := assign callers.depth state lockId 0 } := by
  have owner := (inv.owner lockId state).mpr (by omega)
  constructor
  · intro lock thread
    by_cases same : lock = lockId
    · subst same
      by_cases mine : thread = state
      · simp [assign,mine]
      · have zero := depth_zero inv thread lock (by simp [owner,Ne.symm mine])
        simp [assign,mine,zero]
    · simpa [assign,same] using inv.owner lock thread
  · intro lock thread owns
    have different : lock ≠ lockId := by
      rintro rfl
      simp at owns
    simpa [assign,different] using inv.counted lock thread (by simpa [different] using owns)
  · intro lock nobody
    by_cases same : lock = lockId
    · simp [same]
    · simpa [same] using inv.idle lock (by simpa [same] using nobody)
  · intro lock
    by_cases same : lock = lockId
    · simp [same]
    · simpa [same] using inv.nodup lock
  · intro lock thread
    have before := inv.waiting lock thread
    by_cases same : lock = lockId
    · subst same
      simpa [empty] using before
    · simpa [same] using before

private theorem hand_owned {state heir : Thread} {lockId : Int64} (single : callers.depth state lockId = 1)
    (waiting : (contended callers.registry lockId).getLast? = some heir)
    (idle : callers.blockedOn state = none) :
    Owned (entered { callers with
      registry := write callers.registry lockId (contended callers.registry lockId).dropLast false (some heir) 1
      depth := assign callers.depth state lockId 0 } heir lockId) := by
  have owner := (inv.owner lockId state).mpr (by omega)
  have blocked : callers.blockedOn heir = some lockId :=
    (inv.waiting lockId heir).mp (List.mem_of_getLast? waiting)
  have different : heir ≠ state := by
    rintro rfl
    simp [blocked] at idle
  have zero : ∀ thread, thread ≠ state → callers.depth thread lockId = 0 := fun thread other =>
    depth_zero inv thread lockId (by simp [owner,Ne.symm other])
  obtain ⟨front,split⟩ := List.getLast?_eq_some_iff.mp waiting
  have unique := inv.nodup lockId
  rw [split,List.nodup_append] at unique
  have gone : heir ∉ front := fun inside => unique.2.2 heir inside heir (by simp) rfl
  constructor
  · intro lock thread
    by_cases same : lock = lockId
    · subst same
      by_cases next : thread = heir
      · simp [entered,assign,next]
      · by_cases mine : thread = state
        · simp [entered,assign,mine,different,Ne.symm different]
        · simp [entered,assign,next,mine,Ne.symm next,zero thread mine]
    · simpa [entered,assign,same] using inv.owner lock thread
  · intro lock thread owns
    by_cases same : lock = lockId
    · subst same
      have next : heir = thread := by simpa [entered] using owns
      subst next
      simp [entered,assign,different,zero heir different]
    · simpa [entered,assign,same] using inv.counted lock thread (by simpa [entered,same] using owns)
  · intro lock nobody
    have elsewhere : lock ≠ lockId := by
      rintro rfl
      simp [entered] at nobody
    simpa [entered,elsewhere] using inv.idle lock (by simpa [entered,elsewhere] using nobody)
  · intro lock
    by_cases same : lock = lockId
    · simpa [entered,same,split] using unique.1
    · simpa [entered,same] using inv.nodup lock
  · intro lock thread
    have before := inv.waiting lock thread
    by_cases same : lock = lockId
    · subst same
      by_cases next : thread = heir
      · simp [entered,split,next,gone]
      · simpa [entered,split,next] using before
    · by_cases next : thread = heir
      · subst next
        simp only [blocked,Option.some.injEq,Ne.symm same,iff_false] at before
        simp [entered,same,before]
      · simpa [entered,same,next] using before

end Preservation

private theorem handed_false_iff [DecidableEq Thread] (registry : Registry (ReentrantLockRegistryInfo Thread))
    (state : Thread) (lockId : Int64) : handedToAnother registry state lockId = false ↔
      (locked registry lockId = false → ownerOf registry lockId = none ∨ ownerOf registry lockId = some state) := by
  cases found : registry lockId with
  | none => simp [handedToAnother,ownerOf,found]
  | some info => cases flag : info.monitorLocked <;> cases owner : info.owner <;>
      simp [handedToAnother,locked,ownerOf,found,flag,owner,ReentrantLockRegistryInfo.isMonitorFree,
        ReentrantLockRegistryInfo.isCurrentOwnerThread]

private theorem exhausted_false_iff [DecidableEq Thread] (registry : Registry (ReentrantLockRegistryInfo Thread))
    (state : Thread) (lockId : Int64) : counterExhausted registry state lockId = false ↔
      (ownerOf registry lockId = some state → counterOf registry lockId ≠ Int32.maxValue) := by
  cases found : registry lockId with
  | none => simp [counterExhausted,ownerOf,found]
  | some info => simp [counterExhausted,ownerOf,counterOf,found,ReentrantLockRegistryInfo.isCurrentOwnerThread]

private theorem step_owned [DecidableEq Thread] {callers next : Callers Thread} {call : Call Thread}
    (inv : Owned callers) (orderly : Orderly callers call) (stepped : step callers call = some next) :
    Owned next := by
  rcases step_cases inv stepped with ⟨state,lockId,rfl,idle,enters,rfl⟩ | ⟨state,lockId,rfl,idle,isLocked,-,rfl⟩ |
    ⟨state,lockId,-,inner,-,rfl⟩ | ⟨state,lockId,-,single,empty,-,rfl⟩ |
    ⟨state,lockId,heir,-,single,idle,waiting,-,rfl⟩
  · have own : ownerOf callers.registry lockId = none ∨ ownerOf callers.registry lockId = some state := by
      rcases enters with free | mine
      · exact (handed_false_iff ..).mp orderly.1 free
      · exact .inr mine
    exact enter_owned inv idle own ((exhausted_false_iff ..).mp orderly.2)
  · exact block_owned inv idle isLocked
  · exact leave_owned inv inner
  · exact free_owned inv single empty
  · exact hand_owned inv single waiting idle

private theorem law_of_owned [DecidableEq Thread] {callers : Callers Thread} (inv : Owned callers) :
    MutualExclusion callers where
  exclusive first second lockId held alsoHeld := by
    have owner := (inv.owner lockId first).mpr held
    rw [(inv.owner lockId second).mpr alsoHeld,Option.some.injEq] at owner
    exact owner.symm
  reentrant state lockId holds := by
    rw [tryAcquiringLock_enters (.inr ((inv.owner lockId state).mpr holds))]
  refused state other lockId holds different := by
    have owner := (inv.owner lockId state).mpr holds
    have foreign : ownerOf callers.registry lockId ≠ some other := by simp [owner,Ne.symm different]
    cases flag : locked callers.registry lockId with
    | true => simp [tryAcquiringLock_blocks flag foreign,Orderly,handed_false_iff,exhausted_false_iff,flag,foreign]
    | false => simp [tryAcquiringLock_enters (.inl flag),Orderly,handed_false_iff,flag,owner,Ne.symm different]
  kept state lockId next stepped inner := by
    rcases step_cases inv stepped with ⟨_,_,same,-⟩ | ⟨_,_,same,-⟩ | ⟨_,_,same,-,nobody,rfl⟩ |
      ⟨_,_,same,single,-⟩ | ⟨_,_,_,same,single,-⟩ <;> cases same
    · exact ⟨nobody,by simp [assign]⟩
    · omega
    · omega
  handed state lockId next stepped single := by
    have owner := (inv.owner lockId state).mpr (by omega)
    have zero : ∀ thread, thread ≠ state → callers.depth thread lockId = 0 := fun thread other =>
      depth_zero inv thread lockId (by simp [owner,Ne.symm other])
    rcases step_cases inv stepped with ⟨_,_,same,-⟩ | ⟨_,_,same,-⟩ | ⟨_,_,same,inner,-⟩ |
      ⟨_,_,same,-,empty,nobody,rfl⟩ | ⟨_,_,heir,same,-,idle,waiting,given,rfl⟩ <;> cases same
    · omega
    · refine .inr ⟨nobody,fun other waits => ?_,fun other => ?_⟩
      · have member := (inv.waiting lockId other).mpr waits
        simp [empty] at member
      · by_cases mine : other = state
        · simp [assign,mine]
        · simp [assign,mine,zero other mine]
    · have blocked := (inv.waiting lockId heir).mp (List.mem_of_getLast? waiting)
      have different : heir ≠ state := by
        rintro rfl
        simp [blocked] at idle
      refine .inl ⟨heir,given,blocked,by simp [entered],by simp [entered,assign,different,zero heir different],?_⟩
      intro other notHeir
      by_cases mine : other = state
      · simp [entered,assign,mine,Ne.symm different]
      · simp [entered,assign,notHeir,mine,zero other mine]

/-- Every run in which no third thread tries a lock between its hand-off and the next call of
    its new owner, and no counter overflows, obeys mutual exclusion in every state it reaches. -/
theorem mutual_exclusion_of_orderly [DecidableEq Thread] (calls : List (Call Thread)) (callers : Callers Thread)
    (executed : Runs.run step {} calls = some callers) (orderly : Runs.Meets step Orderly {} calls) :
    MutualExclusion callers :=
  law_of_owned (Runs.invariant_of_meets (fun _ _ _ before ok stepped => step_owned before ok stepped)
    owned_start orderly executed)

end Callers

/-- Thread 1 enters lock 5 twice and leaves it twice; thread 2, refused once, is handed the lock. -/
private def nestedCalls : List (Call Nat) :=
  [.tryAcquiringLock 1 5,.tryAcquiringLock 1 5,.tryAcquiringLock 2 5,.releaseAndGetNext 1 5,.releaseAndGetNext 1 5]

theorem mutual_exclusion_nested : ∃ callers : Callers Nat, Runs.run step {} nestedCalls = some callers ∧
    callers.depth 2 5 = 1 ∧ MutualExclusion callers := by
  obtain ⟨callers,executed⟩ : ∃ callers : Callers Nat, Runs.run step {} nestedCalls = some callers := ⟨_,rfl⟩
  refine ⟨callers,executed,?_,mutual_exclusion_of_orderly nestedCalls callers executed (by decide)⟩
  cases executed
  decide

/-- A third thread that arrives after the hand-off acquires the lock beside its new owner. -/
theorem third_thread_enters : ∃ (calls : List (Call Nat)) (callers : Callers Nat),
    Runs.run step {} calls = some callers ∧ 0 < callers.depth 2 5 ∧ 0 < callers.depth 3 5 :=
  ⟨[.tryAcquiringLock 1 5,.tryAcquiringLock 2 5,.releaseAndGetNext 1 5,.tryAcquiringLock 3 5],_,rfl,
    by decide,by decide⟩

end Vexjine.ReentrantLockRegistry
