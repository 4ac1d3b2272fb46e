import Vexjine.Spawns

/-!
# Joins

Any number of threads that join each other and end, in any order, over the runs
of the registry. The state of a thread remembers one slot of a thread that waits
to join it; the removal from the registry notifies what that slot points to.
-/

namespace Vexjine.ThreadRegistry
set_option linter.unusedSimpArgs false
set_option linter.unusedSectionVars false

variable {Thread Slot : Type} [DecidableEq Thread] [DecidableEq Slot]

/-! ## The law -/

/-- The thread whose state the notification at the removal of `t` writes to. -/
def notified (state : State Thread Slot) (t : Thread) : Option Thread :=
  (state.threads t).parentThreadWaitingYouToJoin.bind state.currentThreadState

/-- A join returns with the joined thread taken for dead. -/
def takesForDead (state : State Thread Slot) (joiningThreadId : Int64) : Bool :=
  decide (state.threadsBeingSpawned = 0) &&
    (state.threadStateIndex joiningThreadId).all fun other => decide ((state.threads other).currentState = .vexZombie)

/-- At the removal of a thread, the live threads that have registered to join it are told so, and where the
    last of them has ended, nothing is written; no unborn thread is taken for dead. -/
def Coordinates (state : State Thread Slot) (event : Event Thread Slot) (next : State Thread Slot) : Prop :=
  match event with
  | .remove t =>
    (∀ joiner ∈ state.joiners t, (state.threads joiner).position = .registered →
      (next.threads joiner).awakeningFromJoin = true) ∧
    ∀ joiner ∈ (state.joiners t).head?, (state.threads joiner).position = .ended → notified state t = none
  | .coordinateJoiningThreads _ joiningThreadId => joiningThreadId ∈ state.unborn → takesForDead state joiningThreadId = false
  | _ => True

/-! ## When it holds -/

/-- Threads are announced properly; of the threads that have registered to join a thread, only the last one is
    alive when it is removed, and where that one has ended, its slot is not another thread's. -/
structure JoinedOnce (excludedThreadsList : List String) (state : State Thread Slot) (event : Event Thread Slot) : Prop where
  announced : Announced excludedThreadsList state event
  alone : ∀ t, event = .remove t → ∀ joiner ∈ state.joiners t, (state.threads joiner).position = .registered →
    (state.joiners t).head? = some joiner
  fresh : ∀ t, event = .remove t → ∀ joiner ∈ (state.joiners t).head?, (state.threads joiner).position = .ended →
    ∀ slot ∈ (state.threads t).parentThreadWaitingYouToJoin, ∀ owner ∈ state.owner slot, owner = joiner

/-! ## The invariant -/

/-- The thread's state is constructed and not deleted. -/
def Position.hasState : Position → Bool
  | .constructed | .registered | .dead | .removed => true
  | _ => false

/-- The thread has been registered. -/
def Position.wasRegistered : Position → Bool
  | .registered | .dead | .removed | .ended => true
  | _ => false

/-- The slots belong to the threads that have them, and point to their states; the index holds registered
    threads; and a joined thread remembers the slot of the last thread that has registered to join it. -/
private structure Coherent (state : State Thread Slot) : Prop where
  absent : ∀ t, (state.threads t).position = .absent → (state.threads t).slot = none
  owns : ∀ t slot, (state.threads t).slot = some slot ↔ state.owner slot = some t
  placed : ∀ t, (state.threads t).position = .created ∨ (state.threads t).position = .checked ∨
    (state.threads t).position.hasState = true → (state.threads t).slot ≠ none
  points : ∀ slot t, state.currentThreadState slot = some t →
    (state.threads t).slot = some slot ∧ (state.threads t).position.hasState = true
  pointed : ∀ slot t, (state.threads t).slot = some slot → (state.threads t).position.hasState = true →
    state.currentThreadState slot = some t
  indexed : ∀ threadId t, state.threadStateIndex threadId = some t → (state.threads t).uniqueId = threadId ∧
    ((state.threads t).position = .registered ∨ (state.threads t).position = .dead)
  targets : ∀ t, state.joiners t ≠ [] → (state.threads t).position.wasRegistered = true
  joined : ∀ t, ∀ joiner ∈ state.joiners t, (state.threads joiner).position.wasRegistered = true
  recorded : ∀ t joiner, (state.joiners t).head? = some joiner → ∃ slot,
    (state.threads t).parentThreadWaitingYouToJoin = some slot ∧ ((state.threads joiner).slot = some slot ∨
      (state.threads joiner).position = .ended)

variable {excludedThreadsList : List String} {state next last : State Thread Slot} {event : Event Thread Slot}

private theorem coherent_initial : Coherent (initial Thread Slot) := by
  constructor <;> simp [initial,Position.hasState]

/-- What the invariant reads is left alone. -/
private structure Unread (state next : State Thread Slot) : Prop where
  threads : ∀ t, (next.threads t).position = (state.threads t).position ∧ (next.threads t).slot = (state.threads t).slot ∧
    (next.threads t).uniqueId = (state.threads t).uniqueId ∧
    (next.threads t).parentThreadWaitingYouToJoin = (state.threads t).parentThreadWaitingYouToJoin
  index : next.threadStateIndex = state.threadStateIndex
  slots : next.currentThreadState = state.currentThreadState
  owners : next.owner = state.owner
  joins : next.joiners = state.joiners

private theorem coherent_unread (coherent : Coherent state) (unread : Unread state next) : Coherent next := by
  obtain ⟨absent,owns,placed,points,pointed,indexed,targets,joined,recorded⟩ := coherent
  obtain ⟨threads,index,slots,owners,joins⟩ := unread
  constructor <;> simp only [threads,index,slots,owners,joins] <;> assumption

/-- Fields of a state that the invariant does not read. -/
private theorem unread_onThread (t : Thread) (change : ThreadState Slot → ThreadState Slot)
    (kept : ∀ thread, (change thread).position = thread.position ∧ (change thread).slot = thread.slot ∧
      (change thread).uniqueId = thread.uniqueId ∧
      (change thread).parentThreadWaitingYouToJoin = thread.parentThreadWaitingYouToJoin) :
    Unread state (state.onThread t change) := by
  refine ⟨fun other => ?_,rfl,rfl,rfl,rfl⟩
  by_cases same : other = t
  · subst same
    simpa [State.onThread] using kept (state.threads other)
  · simp [State.onThread,same]

private theorem announce_unread {parentThreadId threadId : Int64}
    (announced : state.newThreadBeingSpawned parentThreadId threadId = some next) : Unread state next := by
  unfold State.newThreadBeingSpawned at announced
  dsimp only at announced
  split at announced
  · cases announced
    exact ⟨fun _ => ⟨rfl,rfl,rfl,rfl⟩,rfl,rfl,rfl,rfl⟩
  · split at announced
    · cases announced
      exact ⟨fun _ => ⟨rfl,rfl,rfl,rfl⟩,rfl,rfl,rfl,rfl⟩
    · cases announced

private theorem notify_unread (t : Thread) : Unread state (state.notifyParentWaitingForYouToJoin t) := by
  unfold State.notifyParentWaitingForYouToJoin
  split
  · exact unread_onThread _ _ fun _ => ⟨rfl,rfl,rfl,rfl⟩
  · exact ⟨fun _ => ⟨rfl,rfl,rfl,rfl⟩,rfl,rfl,rfl,rfl⟩

/-- A thread that keeps its slot and its state goes on to another position. -/
private theorem coherent_moves {t : Thread} {change : ThreadState Slot → ThreadState Slot} (coherent : Coherent state)
    (slot : (change (state.threads t)).slot = (state.threads t).slot)
    (parent : (change (state.threads t)).parentThreadWaitingYouToJoin = (state.threads t).parentThreadWaitingYouToJoin)
    (present : (change (state.threads t)).position ≠ .absent)
    (hasState : (change (state.threads t)).position.hasState = (state.threads t).position.hasState)
    (started : (change (state.threads t)).position = .created ∨ (change (state.threads t)).position = .checked →
      (state.threads t).slot ≠ none)
    (registered : (state.threads t).position.wasRegistered = true → (change (state.threads t)).position.wasRegistered = true)
    (alive : (state.threads t).position ≠ .ended)
    (indexed : ∀ threadId, state.threadStateIndex threadId = some t → (change (state.threads t)).uniqueId = threadId ∧
      ((change (state.threads t)).position = .registered ∨ (change (state.threads t)).position = .dead)) :
    Coherent (state.onThread t change) := by
  have self : (state.onThread t change).threads t = change (state.threads t) := by simp [State.onThread]
  have others : ∀ other, other ≠ t → (state.onThread t change).threads other = state.threads other :=
    fun other different => by simp [State.onThread,different]
  have slots : ∀ other, ((state.onThread t change).threads other).slot = (state.threads other).slot := by
    intro other
    by_cases same : other = t
    · rw [same,self,slot]
    · rw [others other same]
  have states : ∀ other, ((state.onThread t change).threads other).position.hasState =
      (state.threads other).position.hasState := by
    intro other
    by_cases same : other = t
    · rw [same,self,hasState]
    · rw [others other same]
  have registers : ∀ other, (state.threads other).position.wasRegistered = true →
      ((state.onThread t change).threads other).position.wasRegistered = true := by
    intro other before
    by_cases same : other = t
    · rw [same,self]
      exact registered (same ▸ before)
    · rwa [others other same]
  refine ⟨fun other absent => ?_,fun other slot => ?_,fun other placed => ?_,fun slot other points => ?_,
    fun slot other has state => ?_,fun threadId other known => ?_,fun other joined => ?_,fun other joiner joins => ?_,
    fun other joiner last => ?_⟩
  · rw [slots]
    by_cases same : other = t
    · rw [same,self] at absent
      exact absurd absent present
    · rw [others other same] at absent
      exact coherent.absent other absent
  · rw [slots]
    exact coherent.owns other slot
  · rw [slots]
    by_cases same : other = t
    · rw [same,self] at placed
      rw [same]
      rcases placed with created | checked | alive
      · exact started (.inl created)
      · exact started (.inr checked)
      · exact coherent.placed t (.inr (.inr (hasState ▸ alive)))
    · rw [others other same] at placed
      exact coherent.placed other placed
  · rw [slots,states]
    exact coherent.points slot other points
  · rw [slots] at has
    rw [states] at state
    exact coherent.pointed slot other has state
  · by_cases same : other = t
    · rw [same,self]
      exact indexed threadId (same ▸ known)
    · rw [others other same]
      exact coherent.indexed threadId other known
  · exact registers other (coherent.targets other joined)
  · exact registers joiner (coherent.joined other joiner joins)
  · obtain ⟨slot,recorded,has⟩ := coherent.recorded other joiner last
    refine ⟨slot,?_,has.imp (fun has => by rw [slots,has]) fun ended => ?_⟩
    · by_cases same : other = t
      · rw [same,self,parent,← same]
        exact recorded
      · rwa [others other same]
    · have different : joiner ≠ t := by
        rintro rfl
        exact alive ended
      rw [others joiner different,ended]

/-- Only registered threads are in the index. -/
private theorem unindexed {t : Thread} {threadId : Int64} (coherent : Coherent state)
    (known : state.threadStateIndex threadId = some t) (unregistered : (state.threads t).position ≠ .registered)
    (alive : (state.threads t).position ≠ .dead) : False := by
  rcases (coherent.indexed threadId t known).2 with registered | dead
  · exact unregistered registered
  · exact alive dead

private theorem createThread_coherent {t : Thread} {slot : Slot} {tid : Int64} (coherent : Coherent state)
    (new : (state.threads t).position = .absent) (free : state.owner slot = none) :
    Coherent (((state.onThread t fun thread =>
      { thread with position := .created,slot := some slot,tid }).setSlot slot none).setOwner slot (some t)) := by
  obtain ⟨absent,owns,placed,points,pointed,indexed,targets,joined,recorded⟩ := coherent
  have slotless := absent t new
  constructor <;> simp only [State.setOwner,State.setSlot,State.onThread,Function.update_apply] <;>
    grind [Position.hasState,Position.wasRegistered]

private theorem check_coherent {t : Thread} {threadId : Int64} {threadName : String} (coherent : Coherent state)
    (created : (state.threads t).position = .created) :
    Coherent (state.checkThread excludedThreadsList t threadId threadName) := by
  have outside : Coherent (state.setPosition t .outside) := by
    refine coherent_moves coherent rfl rfl ?_ ?_ ?_ ?_ ?_ fun threadId known => ?_
    all_goals try simp [created,Position.hasState,Position.wasRegistered]
    exact (unindexed coherent known (by simp [created]) (by simp [created])).elim
  unfold State.checkThread
  split
  · exact coherent_unread outside ⟨fun _ => ⟨rfl,rfl,rfl,rfl⟩,rfl,rfl,rfl,rfl⟩
  · split
    · refine coherent_moves coherent rfl rfl ?_ ?_ (fun _ => coherent.placed t (.inl created)) ?_ ?_ fun threadId known => ?_
      all_goals try simp [created,Position.hasState,Position.wasRegistered]
      exact (unindexed coherent known (by simp [created]) (by simp [created])).elim
    · exact outside

private theorem findOrConstruct_coherent {t : Thread} {timeAdded : Nat} {suspends : Bool} (coherent : Coherent state)
    (checked : (state.threads t).position = .checked) : Coherent (state.findOrConstruct t timeAdded suspends) := by
  unfold State.findOrConstruct
  split
  · unfold State.construct
    dsimp only
    obtain ⟨absent,owns,placed,points,pointed,indexed,targets,joined,recorded⟩ := coherent
    split
    · constructor <;> simp only [State.setSlot,State.onThread,Function.update_apply] <;>
        grind [Position.hasState,Position.wasRegistered]
    · next slotless => exact absurd slotless (placed t (.inr (.inl checked)))
  · next other known =>
    have suspended : Unread state (state.suspendCurrentThread other timeAdded suspends) :=
      unread_onThread other _ fun _ => ⟨rfl,rfl,rfl,rfl⟩
    have coherent := coherent_unread coherent suspended
    rw [← (suspended.threads t).1] at checked
    refine coherent_moves coherent rfl rfl ?_ ?_ ?_ ?_ ?_ fun threadId known => ?_
    all_goals try simp [checked,Position.hasState,Position.wasRegistered]
    exact (unindexed coherent known (by simp [checked]) (by simp [checked])).elim

private theorem add_coherent {t : Thread} (coherent : Coherent state)
    (constructed : (state.threads t).position = .constructed) : Coherent (state.add t) := by
  have moved : Coherent (state.setPosition t .registered) := by
    refine coherent_moves coherent rfl rfl ?_ ?_ ?_ ?_ ?_ fun threadId known => ?_
    all_goals try simp [constructed,Position.hasState,Position.wasRegistered]
    exact (unindexed coherent known (by simp [constructed]) (by simp [constructed])).elim
  have entered : Coherent { state.setPosition t .registered with
      threadStateIndex := Function.update state.threadStateIndex (state.threads t).uniqueId (some t) } := by
    obtain ⟨absent,owns,placed,points,pointed,indexed,targets,joined,recorded⟩ := moved
    refine ⟨absent,owns,placed,points,pointed,fun threadId other known => ?_,targets,joined,recorded⟩
    have known : Function.update state.threadStateIndex (state.threads t).uniqueId (some t) threadId = some other := known
    by_cases same : threadId = (state.threads t).uniqueId
    · subst same
      obtain rfl : t = other := by simpa using known
      simp [State.setPosition,State.onThread]
    · rw [Function.update_of_ne same] at known
      exact indexed threadId other known
  refine coherent_unread entered ⟨fun other => ?_,rfl,rfl,rfl,rfl⟩
  by_cases same : other = t
  · subst same
    simp [State.add,State.newThreadStarted,State.setPosition,State.onThread]
  · simp [State.add,State.newThreadStarted,State.setPosition,State.onThread,same]

private theorem coordinate_coherent {t : Thread} {joiningThreadId : Int64} (coherent : Coherent state)
    (registered : (state.threads t).position = .registered)
    (coordinated : state.coordinateJoiningThreads t joiningThreadId = some next) : Coherent next := by
  have awakens : Coherent (state.setAwakeningFromJoin t) :=
    coherent_unread coherent (unread_onThread t _ fun _ => ⟨rfl,rfl,rfl,rfl⟩)
  unfold State.coordinateJoiningThreads at coordinated
  split at coordinated
  · cases coordinated
  · split at coordinated
    · next otherThread known =>
      split at coordinated
      · cases coordinated
        obtain ⟨absent,owns,placed,points,pointed,indexed,targets,joined,recorded⟩ := coherent
        obtain ⟨-,placedOther⟩ := indexed _ _ known
        have waits := placed t (.inr (.inr (by rw [registered]; rfl)))
        obtain ⟨slot,has⟩ := Option.ne_none_iff_exists'.mp waits
        constructor <;> simp only [State.onThread,Function.update_apply] <;>
          grind [Position.hasState,Position.wasRegistered]
      · cases coordinated
        exact awakens
    · cases coordinated
      exact awakens

private theorem remove_coherent {t : Thread} (coherent : Coherent state) (dead : (state.threads t).position = .dead) :
    Coherent (state.remove t) := by
  have unread : Unread state (state.notifyParentWaitingForYouToJoin t) := notify_unread t
  have coherent := coherent_unread coherent unread
  obtain ⟨position,-,uniqueId,-⟩ := unread.threads t
  rw [← position] at dead
  unfold State.remove
  rw [← unread.index,← uniqueId]
  generalize state.notifyParentWaitingForYouToJoin t = notified at coherent dead ⊢
  obtain ⟨absent,owns,placed,points,pointed,indexed,targets,joined,recorded⟩ := coherent
  have forgotten : ∀ threadId other,
      Function.update notified.threadStateIndex (notified.threads t).uniqueId none threadId = some other →
      notified.threadStateIndex threadId = some other ∧ threadId ≠ (notified.threads t).uniqueId := by
    intro threadId other known
    by_cases same : threadId = (notified.threads t).uniqueId
    · simp [same] at known
    · rw [Function.update_of_ne same] at known
      exact ⟨known,same⟩
  refine coherent_moves ⟨absent,owns,placed,points,pointed,?_,targets,joined,recorded⟩ rfl rfl ?_ ?_ ?_ ?_ ?_ ?_
  all_goals try simp [dead,Position.hasState,Position.wasRegistered]
  · exact fun threadId other known => indexed threadId other (forgotten threadId other known).1
  · intro threadId known
    obtain ⟨known,different⟩ := forgotten threadId t known
    exact different (indexed threadId t known).1.symm

private theorem cleanup_coherent {t : Thread} (coherent : Coherent state)
    (removed : (state.threads t).position = .removed) : Coherent (state.cleanup t) := by
  obtain ⟨absent,owns,placed,points,pointed,indexed,targets,joined,recorded⟩ := coherent
  unfold State.cleanup
  dsimp only
  split
  · constructor <;> simp only [State.setSlot,State.setPosition,State.onThread,Function.update_apply] <;>
      grind [Position.hasState,Position.wasRegistered]
  · next slotless => exact absurd slotless (placed t (.inr (.inr (by rw [removed]; rfl))))

private theorem exitThread_coherent {t : Thread} {slot : Slot} (coherent : Coherent state)
    (left : (state.threads t).position = .ended ∨ (state.threads t).position = .outside ∨
      (state.threads t).position = .misled) (had : (state.threads t).slot = some slot) :
    Coherent ((state.onThread t fun thread => { thread with slot := none }).setOwner slot none) := by
  obtain ⟨absent,owns,placed,points,pointed,indexed,targets,joined,recorded⟩ := coherent
  have stateless : (state.threads t).position.hasState = false := by
    rcases left with at_ | at_ | at_ <;> rw [at_] <;> rfl
  have heads : ∀ other joiner, (state.joiners other).head? = some joiner →
      (state.threads joiner).position.wasRegistered = true := fun other joiner head =>
    joined other joiner (List.mem_of_mem_head? head)
  constructor <;> simp only [State.setOwner,State.onThread,Function.update_apply] <;>
    grind [Position.hasState,Position.wasRegistered]

private theorem step_coherent (coherent : Coherent state) (stepped : step excludedThreadsList state event = some next) :
    Coherent next := by
  cases event <;> simp only [step,Option.ite_none_right_eq_some,Option.some.injEq] at stepped
  case beforeCreatingThread t threadId => exact coherent_unread coherent (announce_unread stepped.2)
  case onThreadMainStart t threadId => exact coherent_unread coherent (announce_unread stepped.2)
  case coordinateJoiningThreads t joiningThreadId => exact coordinate_coherent coherent stepped.1 stepped.2
  case exitThread t =>
    obtain ⟨left,stepped⟩ := stepped
    obtain ⟨slot,had,rfl⟩ := Option.map_eq_some_iff.mp stepped
    exact exitThread_coherent coherent left had
  all_goals obtain ⟨placed,rfl⟩ := stepped
  case createThread t slot tid => exact createThread_coherent coherent placed.1 placed.2
  case checkThread t threadId threadName => exact check_coherent coherent placed
  case findOrConstruct t timeAdded suspends => exact findOrConstruct_coherent coherent placed
  case add t => exact add_coherent coherent placed
  case setEstimatedRealTime t _ => exact coherent_unread coherent (unread_onThread t _ fun _ => ⟨rfl,rfl,rfl,rfl⟩)
  case onWrappedWaiting t => exact coherent_unread coherent (unread_onThread t _ fun _ => ⟨rfl,rfl,rfl,rfl⟩)
  case setDead t =>
    refine coherent_moves coherent rfl rfl ?_ ?_ ?_ ?_ ?_ fun threadId known => ⟨(coherent.indexed threadId t known).1,.inr rfl⟩
    all_goals simp [placed,Position.hasState,Position.wasRegistered]
  case remove t => exact remove_coherent coherent placed
  case cleanup t => exact cleanup_coherent coherent placed

/-! ## The runs -/

/-- The removal reaches the last joiner as long as it is alive. -/
private theorem remove_notifies {t joiner : Thread} (coherent : Coherent state)
    (last : (state.joiners t).head? = some joiner) (registered : (state.threads joiner).position = .registered) :
    ((state.remove t).threads joiner).awakeningFromJoin = true := by
  obtain ⟨slot,recorded,has⟩ := coherent.recorded t joiner last
  have has : (state.threads joiner).slot = some slot := by
    rcases has with has | ended
    · exact has
    · rw [registered] at ended
      cases ended
  have points := coherent.pointed slot joiner has (by rw [registered]; rfl)
  have told : state.notifyParentWaitingForYouToJoin t = state.setAwakeningFromJoin joiner := by
    simp [State.notifyParentWaitingForYouToJoin,recorded,points]
  simp only [State.remove,told,State.setAwakeningFromJoin,State.setPosition,State.onThread,Function.update_apply]
  split <;> simp_all

/-- The slot of the last joiner is empty once that has ended, unless another thread has got it. -/
private theorem remove_silent {t joiner : Thread} (coherent : Coherent state)
    (last : (state.joiners t).head? = some joiner) (ended : (state.threads joiner).position = .ended)
    (fresh : ∀ slot ∈ (state.threads t).parentThreadWaitingYouToJoin, ∀ owner ∈ state.owner slot, owner = joiner) :
    notified state t = none := by
  obtain ⟨slot,recorded,-⟩ := coherent.recorded t joiner last
  rw [notified,recorded,Option.bind_some]
  cases content : state.currentThreadState slot with
  | none => rfl
  | some other =>
    obtain ⟨has,alive⟩ := coherent.points slot other content
    have same := fresh slot recorded other ((coherent.owns other slot).mp has)
    rw [same,ended] at alive
    cases alive

private theorem coordinates_of_joinedOnce (coherent : Coherent state) (counts : CountsUnborn state)
    (once : JoinedOnce excludedThreadsList state event) (stepped : step excludedThreadsList state event = some next) :
    Coordinates state event next := by
  cases event with
  | remove t =>
    simp only [step,Option.ite_none_right_eq_some,Option.some.injEq] at stepped
    obtain ⟨-,rfl⟩ := stepped
    refine ⟨fun joiner joins registered => ?_,fun joiner last ended => ?_⟩
    · exact remove_notifies coherent (once.alone t rfl joiner joins registered) registered
    · exact remove_silent coherent last ended (once.fresh t rfl joiner last ended)
  | coordinateJoiningThreads t joiningThreadId =>
    intro unborn
    have spawning : state.threadsBeingSpawned ≠ 0 := by
      rw [counts]
      exact (List.length_pos_of_mem unborn).ne'
    simp [takesForDead,spawning]
  | _ => trivial

/-- Any number of threads that join each other, in a run that meets the condition throughout. -/
theorem joins_coordinate (excludedThreadsList : List String) (events : List (Event Thread Slot))
    (once : Runs.Meets (step excludedThreadsList) (JoinedOnce excludedThreadsList) (initial Thread Slot) events) :
    Runs.Meets (step excludedThreadsList)
      (fun state event => ∀ next ∈ step excludedThreadsList state event, Coordinates state event next)
      (initial Thread Slot) events := by
  refine @Runs.meets_of_invariant _ _ _ _ (fun state => Coherent state ∧ CountsUnborn state) _
    (fun state event next held once stepped => ⟨step_coherent held.1 stepped,(step_counts_iff held.2 stepped).mpr once.announced⟩)
    (fun state event held once next stepped => coordinates_of_joinedOnce held.1 held.2 once stepped)
    _ ⟨coherent_initial,rfl⟩ _ once

instance (excludedThreadsList : List String) (state : State Thread Slot) (event : Event Thread Slot) :
    Decidable (JoinedOnce excludedThreadsList state event) :=
  match event with
  | .remove t =>
    have : Decidable (∀ joiner ∈ state.joiners t, (state.threads joiner).position = .registered →
      (state.joiners t).head? = some joiner) := List.decidableBAll _ _
    have : ∀ (joiner : Thread) (slot : Slot), Decidable (∀ owner ∈ state.owner slot, owner = joiner) :=
      fun joiner slot => Option.decidableForallMem _
    have : ∀ joiner : Thread, Decidable (∀ slot ∈ (state.threads t).parentThreadWaitingYouToJoin,
      ∀ owner ∈ state.owner slot, owner = joiner) := fun joiner => Option.decidableForallMem _
    have : Decidable (∀ joiner ∈ (state.joiners t).head?, (state.threads joiner).position = .ended →
      ∀ slot ∈ (state.threads t).parentThreadWaitingYouToJoin, ∀ owner ∈ state.owner slot, owner = joiner) :=
      Option.decidableForallMem _
    decidable_of_iff (Announced excludedThreadsList state (.remove t) ∧ _ ∧ _)
      ⟨fun parts => ⟨parts.1,fun _ same => by cases same; exact parts.2.1,fun _ same => by cases same; exact parts.2.2⟩,
        fun once => ⟨once.announced,once.alone t rfl,once.fresh t rfl⟩⟩
  | .createThread _ _ _ | .beforeCreatingThread _ _ | .onThreadMainStart _ _ | .checkThread _ _ _ | .findOrConstruct _ _ _
  | .add _ | .setEstimatedRealTime _ _ | .coordinateJoiningThreads _ _ | .onWrappedWaiting _ | .setDead _ | .cleanup _
  | .exitThread _ => decidable_of_iff (Announced excludedThreadsList state _)
      ⟨fun announced => ⟨announced,nofun,nofun⟩,fun once => once.announced⟩

instance (state next : State Thread Slot) (event : Event Thread Slot) : Decidable (Coordinates state event next) :=
  match event with
  | .remove t =>
    have : Decidable (∀ joiner ∈ state.joiners t, (state.threads joiner).position = .registered →
      (next.threads joiner).awakeningFromJoin = true) := List.decidableBAll _ _
    have : Decidable (∀ joiner ∈ (state.joiners t).head?, (state.threads joiner).position = .ended →
      notified state t = none) := Option.decidableForallMem _
    inferInstanceAs (Decidable (_ ∧ _))
  | .coordinateJoiningThreads _ joiningThreadId =>
    inferInstanceAs (Decidable (joiningThreadId ∈ state.unborn → takesForDead state joiningThreadId = false))
  | .createThread _ _ _ | .beforeCreatingThread _ _ | .onThreadMainStart _ _ | .checkThread _ _ _ | .findOrConstruct _ _ _
  | .add _ | .setEstimatedRealTime _ _ | .onWrappedWaiting _ | .setDead _ | .cleanup _ | .exitThread _ => .isTrue trivial

instance (excludedThreadsList : List String) (state : State Thread Slot) (event : Event Thread Slot) :
    Decidable (∀ next ∈ step excludedThreadsList state event, Coordinates state event next) :=
  Option.decidableForallMem _

/-- Thread `t` starts, with the language-level id `threadId`. -/
private def start (t slot : Nat) (threadId : Int64) (threadName : String) : List (Event Nat Nat) :=
  [.createThread t slot (.ofNat (100 + t)),.checkThread t threadId threadName,.findOrConstruct t 0 false,.add t]

private def finish (t : Nat) : List (Event Nat Nat) := [.setDead t,.remove t,.cleanup t,.exitThread t]

/-- The main thread and two workers. -/
private def workers : List (Event Nat Nat) :=
  [.createThread 0 0 100,.onThreadMainStart 0 1,.checkThread 0 1 "main",.findOrConstruct 0 0 false,.add 0,
    .beforeCreatingThread 0 7,.beforeCreatingThread 0 8] ++ start 1 1 7 "worker" ++ start 2 2 8 "worker"

/-- Worker 2 gives up to join worker 1 and ends, another thread gets its slot, and the main thread joins worker 1. -/
theorem joins_after_joiner_ended : Runs.Meets (step [])
    (fun state event => ∀ next ∈ step [] state event, Coordinates state event next) (initial Nat Nat)
    (workers ++ [.coordinateJoiningThreads 2 7] ++ finish 2 ++ [.beforeCreatingThread 0 9] ++ start 3 2 9 "worker" ++
      [.coordinateJoiningThreads 0 7] ++ finish 1) :=
  joins_coordinate [] _ (by decide +kernel)

/-- Of two threads that join a third one only the last is told; the removal writes to the state of a thread that
    has got the slot of an ended joiner; and an unborn thread is taken for dead after an excluded thread that nobody
    has announced has counted it off. -/
theorem joins_interfere :
    ¬ Runs.Meets (step []) (fun state event => ∀ next ∈ step [] state event, Coordinates state event next)
      (initial Nat Nat) (workers ++ [.coordinateJoiningThreads 0 7,.coordinateJoiningThreads 2 7] ++ finish 1) ∧
    ¬ Runs.Meets (step []) (fun state event => ∀ next ∈ step [] state event, Coordinates state event next)
      (initial Nat Nat) (workers ++ [.coordinateJoiningThreads 2 7] ++ finish 2 ++ [.beforeCreatingThread 0 9] ++
        start 3 2 9 "worker" ++ finish 1) ∧
    ¬ Runs.Meets (step ["Finalizer"])
      (fun state event => ∀ next ∈ step ["Finalizer"] state event, Coordinates state event next)
      (initial Nat Nat) (workers ++ [.beforeCreatingThread 0 9,.createThread 3 3 103,.checkThread 3 5 "Finalizer",
        .coordinateJoiningThreads 0 9]) :=
  ⟨by decide +kernel,by decide +kernel,by decide +kernel⟩

end Vexjine.ThreadRegistry
