import Vexjine.Runs
import Mathlib.Logic.Relation
import Mathlib.Data.Finset.Basic

/-!
# Parties that execute lock and unlock operations

Each party has a list of operations on non-recursive keys left to execute, and
parties take steps in any order. A party may own one of the keys; what a party
locks besides its own key are its targets. Parties whose targets never form a
cycle, and which never lock a second target, are never in a cycle of waits.
-/

namespace Vexjine.LockPrograms
open Relation (TransGen ReflTransGen)
set_option linter.unusedSimpArgs false
set_option linter.unusedSectionVars false

/-! ## Adding edges to an acyclic relation -/

section Edges
variable {Node : Type*} {before after : Node → Node → Prop} (source : Node) (added : Node → Prop)

private theorem reach_of_added (edges : ∀ x y, after x y → before x y ∨ x = source ∧ added y) {start last : Node}
    (apart : ¬ ReflTransGen before start source) (path : ReflTransGen after start last) :
    ReflTransGen before start last := by
  induction path with
  | refl => exact .refl
  | tail _ edge ih =>
    rcases edges _ _ edge with old | ⟨rfl,-⟩
    · exact ih.tail old
    · exact absurd ih apart

/-- New edges from one node close no cycle when none of their ends leads back to it. -/
theorem acyclic_of_added (edges : ∀ x y, after x y → before x y ∨ x = source ∧ added y)
    (apart : ∀ y, added y → ¬ ReflTransGen before y source) (acyclic : ∀ x, ¬ TransGen before x x) (x : Node) :
    ¬ TransGen after x x := by
  intro cycle
  have split : ∀ y, TransGen after x y → TransGen before x y ∨
      ∃ first, added first ∧ ReflTransGen after x source ∧ ReflTransGen after first y := by
    intro y path
    induction path with
    | single edge =>
      rcases edges _ _ edge with old | ⟨rfl,new⟩
      · exact .inl (.single old)
      · exact .inr ⟨_,new,.refl,.refl⟩
    | tail earlier edge ih =>
      rcases ih with old | ⟨first,new,reached,later⟩
      · rcases edges _ _ edge with older | ⟨rfl,new⟩
        · exact .inl (old.tail older)
        · exact .inr ⟨_,new,earlier.to_reflTransGen,.refl⟩
      · exact .inr ⟨first,new,reached,later.tail edge⟩
  rcases split x cycle with old | ⟨first,new,reached,later⟩
  · exact acyclic x old
  · exact apart first new (reach_of_added source added edges (apart first new) (later.trans reached))

end Edges

/-! ## Operations of one party -/

inductive Operation (Key : Type*)
  | lock (key : Key)
  | timedLock (key : Key)
  | unlock (key : Key)
  deriving DecidableEq

variable {Party Key : Type*} [DecidableEq Party] [DecidableEq Key]

/-- The key that the operation locks. -/
def Operation.locks : Operation Key → Option Key
  | .lock key | .timedLock key => some key
  | .unlock _ => none

/-- The keys a party holds after the operations; `none` where it locks a key it holds already, or a
    key other than its own while it holds another one that is not its own. -/
def follow (own : Option Key) : Finset Key → List (Operation Key) → Option (Finset Key)
  | held, [] => some held
  | held, .lock key :: rest | held, .timedLock key :: rest =>
    if key ∉ held ∧ (own = some key ∨ ∀ other ∈ held, own = some other) then follow own (insert key held) rest else none
  | held, .unlock key :: rest => follow own (held.erase key) rest

theorem follow_append (own : Option Key) (held : Finset Key) (first second : List (Operation Key)) :
    follow own held (first ++ second) = (follow own held first).bind fun middle => follow own middle second := by
  induction first generalizing held with
  | nil => rfl
  | cons operation rest ih =>
    cases operation with
    | lock key | timedLock key =>
      simp only [List.cons_append,follow]
      split
      · exact ih _
      · rfl
    | unlock key => exact ih _

/-- A party that holds fewer keys can follow the same operations. -/
theorem follow_mono {own : Option Key} {held fewer result : Finset Key} {operations : List (Operation Key)}
    (subset : fewer ⊆ held) (followed : follow own held operations = some result) :
    ∃ less, less ⊆ result ∧ follow own fewer operations = some less := by
  induction operations generalizing held fewer with
  | nil =>
    cases followed
    exact ⟨fewer,subset,rfl⟩
  | cons operation rest ih =>
    cases operation with
    | lock key | timedLock key =>
      simp only [follow,Option.ite_none_right_eq_some] at followed ⊢
      obtain ⟨⟨fresh,allowed⟩,later⟩ := followed
      have stillAllowed : key ∉ fewer ∧ (own = some key ∨ ∀ other ∈ fewer, own = some other) :=
        ⟨fun member => fresh (subset member),allowed.imp_right fun others other member => others other (subset member)⟩
      obtain ⟨less,inside,reached⟩ := ih (Finset.insert_subset_insert key subset) later
      exact ⟨less,inside,stillAllowed,reached⟩
    | unlock key =>
      simp only [follow] at followed ⊢
      exact ih (Finset.erase_subset_erase key subset) followed

/-! ## Parties in any order -/

/-- Who holds each key, and the operations that each party has left. -/
structure State (Party Key : Type*) where
  holder : Key → Option Party
  todo : Party → List (Operation Key)

/-- A party that has finished starts new operations, or is interrupted by other ones; it executes
    its next operation; or it gives up a timed lock together with the unlock of that key. -/
inductive Event (Party Key : Type*)
  | start (party : Party) (operations : List (Operation Key))
  | interrupt (party : Party) (operations : List (Operation Key))
  | advance (party : Party)
  | giveUp (party : Party)

def State.setTodo (state : State Party Key) (party : Party) (operations : List (Operation Key)) : State Party Key :=
  { state with todo := Function.update state.todo party operations }

def State.setHolder (state : State Party Key) (key : Key) (party : Option Party) : State Party Key :=
  { state with holder := Function.update state.holder key party }

/-- One step; an unlock frees the key whoever holds it. -/
def step (state : State Party Key) : Event Party Key → Option (State Party Key)
  | .start party operations => if state.todo party = [] then some (state.setTodo party operations) else none
  | .interrupt party operations => some (state.setTodo party (operations ++ state.todo party))
  | .advance party => match state.todo party with
    | [] => none
    | .lock key :: rest | .timedLock key :: rest =>
      if state.holder key = none then some ((state.setHolder key (some party)).setTodo party rest) else none
    | .unlock key :: rest => some ((state.setHolder key none).setTodo party rest)
  | .giveUp party => match state.todo party with
    | .timedLock key :: .unlock other :: rest => if key = other then some (state.setTodo party rest) else none
    | _ => none

/-- All keys free and no party at work. -/
def idle : State Party Key := ⟨fun _ => none,fun _ => []⟩

/-- The party's next operation is a lock of a key that the other one holds. -/
def WaitsFor (state : State Party Key) (party other : Party) : Prop :=
  ∃ operation rest key, state.todo party = operation :: rest ∧ operation.locks = some key ∧
    state.holder key = some other

/-- The other party's key is one that the party holds or has still to lock, and is not its own. -/
def Targets (own : Party → Option Key) (state : State Party Key) (party other : Party) : Prop :=
  ∃ key, own other = some key ∧ own party ≠ some key ∧
    (state.holder key = some party ∨ ∃ operation ∈ state.todo party, operation.locks = some key)

/-- No party is, over other ones, waiting for itself. -/
def DeadlockFree (state : State Party Key) : Prop := ∀ party, ¬ TransGen (WaitsFor state) party party

/-- What a party has left to do is in order for exactly the keys it holds, and leaves it none. -/
def Ordered (own : Party → Option Key) (state : State Party Key) : Prop :=
  ∀ party, ∃ held, (∀ key, key ∈ held ↔ state.holder key = some party) ∧
    follow (own party) held (state.todo party) = some ∅

section Rules
variable {own : Party → Option Key} {state : State Party Key}

/-- The party waits for its own key. -/
private def WaitsForOwn (own : Party → Option Key) (state : State Party Key) (party : Party) : Prop :=
  ∃ operation rest key, state.todo party = operation :: rest ∧ operation.locks = some key ∧ own party = some key

private theorem allowed_of_ordered (ordered : Ordered own state) {party : Party} {operation : Operation Key}
    {rest : List (Operation Key)} {key : Key} (next : state.todo party = operation :: rest)
    (locks : operation.locks = some key) :
    state.holder key ≠ some party ∧
      (own party = some key ∨ ∀ other, state.holder other = some party → own party = some other) := by
  obtain ⟨held,exactly,followed⟩ := ordered party
  rw [next] at followed
  cases operation with
  | unlock other => cases locks
  | lock other | timedLock other =>
    cases locks
    simp only [follow,Option.ite_none_right_eq_some] at followed
    obtain ⟨⟨fresh,allowed⟩,-⟩ := followed
    exact ⟨fun holds => fresh ((exactly _).mpr holds),allowed.imp_right fun others other holds =>
      others other ((exactly other).mpr holds)⟩

/-- Who waits for its own key is a target of the holder, and a holder that waits does so for its own. -/
private theorem own_wait (ordered : Ordered own state) {party other : Party} (waits : WaitsForOwn own state party)
    (edge : WaitsFor state party other) (distinct : ∀ p q key, own p = some key → own q = some key → p = q) :
    Targets own state other party ∧ ∀ third, WaitsFor state other third → WaitsForOwn own state other := by
  obtain ⟨operation,rest,key,next,locks,mine⟩ := waits
  obtain ⟨operation',rest',key',next',locks',holds⟩ := edge
  rw [next,List.cons.injEq] at next'
  obtain ⟨rfl,rfl⟩ := next'
  rw [locks,Option.some.injEq] at locks'
  subst locks'
  have notSelf : other ≠ party := by
    rintro rfl
    exact (allowed_of_ordered ordered next locks).1 holds
  have notOwn : own other ≠ some key := fun owns => notSelf (distinct _ _ _ owns mine)
  refine ⟨⟨key,mine,notOwn,.inl holds⟩,?_⟩
  rintro third ⟨operation',rest',key',next',locks',-⟩
  refine ⟨operation',rest',key',next',locks',?_⟩
  exact (allowed_of_ordered ordered next' locks').2.resolve_right fun others => notOwn (others key holds)

private theorem own_wait_path (ordered : Ordered own state) (distinct : ∀ p q key, own p = some key → own q = some key → p = q)
    {party last : Party} (waits : WaitsForOwn own state party) (path : TransGen (WaitsFor state) party last) :
    TransGen (Targets own state) last party ∧ ∀ third, WaitsFor state last third → WaitsForOwn own state last := by
  induction path with
  | single edge =>
    have found := own_wait ordered waits edge distinct
    exact ⟨.single found.1,found.2⟩
  | tail _ edge ih =>
    have found := own_wait ordered (ih.2 _ edge) edge distinct
    exact ⟨.head found.1 ih.1,found.2⟩

/-- Where neither end of a wait waits for its own key, the holder is a target. -/
private theorem target_wait (ordered : Ordered own state) {party other third : Party}
    (forward : ¬ WaitsForOwn own state party) (edge : WaitsFor state party other)
    (onward : ¬ WaitsForOwn own state other) (further : WaitsFor state other third) :
    Targets own state party other := by
  obtain ⟨operation,rest,key,next,locks,holds⟩ := edge
  obtain ⟨operation',rest',key',next',locks',-⟩ := further
  have notOwn : own party ≠ some key := fun mine => forward ⟨operation,rest,key,next,locks,mine⟩
  have others := (allowed_of_ordered ordered next' locks').2.resolve_left
    fun mine => onward ⟨operation',rest',key',next',locks',mine⟩
  exact ⟨key,others key holds,notOwn,.inr ⟨operation,by rw [next]; simp,locks⟩⟩

/-- Parties in order whose targets form no cycle are in no cycle of waits. -/
theorem deadlockFree_of_ordered (ordered : Ordered own state)
    (distinct : ∀ p q key, own p = some key → own q = some key → p = q)
    (acyclic : ∀ party, ¬ TransGen (Targets own state) party party) : DeadlockFree state := by
  intro party cycle
  -- no party of the cycle waits for its own key: from there on all would, against the targets
  have forward : ∀ other, TransGen (WaitsFor state) other other → ¬ WaitsForOwn own state other :=
    fun other around waits => acyclic other (own_wait_path ordered distinct waits around).1
  have around : ∀ other, TransGen (WaitsFor state) party other → TransGen (WaitsFor state) other party →
      TransGen (WaitsFor state) other other := fun other there back => back.trans there
  have targets : ∀ other, TransGen (WaitsFor state) party other → TransGen (WaitsFor state) other party →
      TransGen (Targets own state) party other := by
    intro other path
    induction path with
    | single edge =>
      intro back
      obtain ⟨third,further,-⟩ := TransGen.head'_iff.mp back
      exact .single (target_wait ordered (forward party cycle) edge (forward _ (around _ (.single edge) back)) further)
    | tail earlier edge ih =>
      intro back
      have middle := ih (.head edge back)
      obtain ⟨third,further,-⟩ := TransGen.head'_iff.mp back
      exact middle.tail (target_wait ordered (forward _ (around _ earlier (.head edge back))) edge
        (forward _ (around _ (earlier.tail edge) back)) further)
  exact acyclic party (targets party cycle cycle)

/-! ## Steps that keep the order -/

/-- New operations of a party that holds nothing leave it nothing, and none of their targets leads
    back to the party; those that interrupt it lock only its own key and leave it no further key. -/
def Fits (own : Party → Option Key) (state : State Party Key) : Event Party Key → Prop
  | .start party operations => follow (own party) ∅ operations = some ∅ ∧
      ∀ other key, own other = some key → own party ≠ some key →
        (∃ operation ∈ operations, operation.locks = some key) → ¬ ReflTransGen (Targets own state) other party
  | .interrupt party operations =>
      (∀ held, (∀ key, key ∈ held ↔ state.holder key = some party) →
        ∃ less, less ⊆ held ∧ follow (own party) held operations = some less) ∧
      ∀ operation ∈ operations, ∀ key, operation.locks = some key → own party = some key
  | .advance _ | .giveUp _ => True

/-- The order of the parties and of their targets. -/
structure InOrder (own : Party → Option Key) (state : State Party Key) : Prop where
  ordered : Ordered own state
  acyclic : ∀ party, ¬ TransGen (Targets own state) party party

theorem inOrder_idle (own : Party → Option Key) : InOrder own (idle : State Party Key) where
  ordered _ := ⟨∅,by simp [idle],rfl⟩
  acyclic party cycle := by
    obtain ⟨other,⟨key,-,-,busy⟩,-⟩ := TransGen.head'_iff.mp cycle
    simp [idle] at busy

@[simp] private theorem setTodo_holder (party : Party) (operations : List (Operation Key)) :
    (state.setTodo party operations).holder = state.holder := rfl

@[simp] private theorem setTodo_todo (party : Party) (operations : List (Operation Key)) :
    (state.setTodo party operations).todo = Function.update state.todo party operations := rfl

@[simp] private theorem setHolder_holder (key : Key) (party : Option Party) :
    (state.setHolder key party).holder = Function.update state.holder key party := rfl

@[simp] private theorem setHolder_todo (key : Key) (party : Option Party) :
    (state.setHolder key party).todo = state.todo := rfl

private theorem ordered_setTodo (ordered : Ordered own state) {party : Party} {operations : List (Operation Key)}
    (follows : ∀ held, (∀ key, key ∈ held ↔ state.holder key = some party) →
      follow (own party) held (state.todo party) = some ∅ → follow (own party) held operations = some ∅) :
    Ordered own (state.setTodo party operations) := by
  intro other
  obtain ⟨held,exactly,followed⟩ := ordered other
  refine ⟨held,exactly,?_⟩
  by_cases same : other = party
  · subst same
    simpa using follows held exactly followed
  · simpa [same] using followed

/-- A party that takes or frees a key; the others hold no more than before. -/
private theorem ordered_setHolder (ordered : Ordered own state) {party : Party} {key : Key} {holder : Option Party}
    {rest : List (Operation Key)} (others : ∀ other, holder = some other → other = party)
    (follows : ∀ held, (∀ key, key ∈ held ↔ state.holder key = some party) →
      follow (own party) held (state.todo party) = some ∅ → ∃ now,
        (∀ other, other ∈ now ↔ Function.update state.holder key holder other = some party) ∧
        follow (own party) now rest = some ∅) :
    Ordered own ((state.setHolder key holder).setTodo party rest) := by
  intro other
  obtain ⟨held,exactly,followed⟩ := ordered other
  by_cases same : other = party
  · subst same
    simpa using follows held exactly followed
  · obtain ⟨less,inside,reached⟩ := follow_mono (Finset.erase_subset key held) followed
    obtain rfl : less = ∅ := Finset.subset_empty.mp inside
    refine ⟨held.erase key,fun changed => ?_,by simpa [same] using reached⟩
    by_cases this : changed = key
    · subst this
      simp only [Finset.mem_erase,ne_eq,not_true_eq_false,false_and,setTodo_holder,setHolder_holder,
        Function.update_self,false_iff]
      exact fun taken => same (others other taken)
    · simp [this,exactly]

private theorem step_ordered {next : State Party Key} {event : Event Party Key} (ordered : Ordered own state)
    (fits : Fits own state event) (stepped : step state event = some next) : Ordered own next := by
  cases event with
  | start party operations =>
    simp only [step,Option.ite_none_right_eq_some,Option.some.injEq] at stepped
    obtain ⟨done,rfl⟩ := stepped
    refine ordered_setTodo ordered fun held _ followed => ?_
    rw [done] at followed
    cases followed
    exact fits.1
  | interrupt party operations =>
    simp only [step,Option.some.injEq] at stepped
    obtain rfl := stepped
    refine ordered_setTodo ordered fun held exactly followed => ?_
    obtain ⟨less,inside,reached⟩ := fits.1 held exactly
    obtain ⟨last,empty,later⟩ := follow_mono inside followed
    obtain rfl : last = ∅ := Finset.subset_empty.mp empty
    rw [follow_append,reached]
    exact later
  | advance party =>
    simp only [step] at stepped
    cases next' : state.todo party with
    | nil => simp [next'] at stepped
    | cons operation rest =>
      rw [next'] at stepped
      cases operation with
      | lock key | timedLock key =>
        simp only [Option.ite_none_right_eq_some,Option.some.injEq] at stepped
        obtain ⟨free,rfl⟩ := stepped
        refine ordered_setHolder ordered (by simp) fun held exactly followed => ?_
        rw [next'] at followed
        simp only [follow,Option.ite_none_right_eq_some] at followed
        refine ⟨insert key held,fun other => ?_,followed.2⟩
        by_cases same : other = key
        · simp [same]
        · simp [same,exactly]
      | unlock key =>
        cases stepped
        refine ordered_setHolder ordered (by simp) fun held exactly followed => ?_
        rw [next'] at followed
        refine ⟨held.erase key,fun other => ?_,followed⟩
        by_cases same : other = key
        · simp [same]
        · simp [same,exactly]
  | giveUp party =>
    simp only [step] at stepped
    split at stepped
    · next key other rest next' =>
      simp only [Option.ite_none_right_eq_some,Option.some.injEq] at stepped
      obtain ⟨rfl,rfl⟩ := stepped
      refine ordered_setTodo ordered fun held _ followed => ?_
      rw [next'] at followed
      simp only [follow,Option.ite_none_right_eq_some] at followed
      obtain ⟨⟨fresh,-⟩,later⟩ := followed
      rwa [Finset.erase_insert fresh] at later
    · cases stepped

/-- Executing operations adds no target. -/
private theorem advance_targets {next : State Party Key} {party : Party}
    (stepped : step state (.advance party) = some next ∨ step state (.giveUp party) = some next) {p q : Party}
    (targets : Targets own next p q) : Targets own state p q := by
  obtain ⟨key,owns,foreign,busy⟩ := targets
  refine ⟨key,owns,foreign,?_⟩
  have kept : ∀ {operation : Operation Key} {rest : List (Operation Key)}, state.todo party = operation :: rest →
      (∃ found ∈ Function.update state.todo party rest p, found.locks = some key) →
      ∃ found ∈ state.todo p, found.locks = some key := by
    rintro operation rest shape ⟨found,member,locks⟩
    refine ⟨found,?_,locks⟩
    by_cases same : p = party
    · subst same
      rw [shape]
      exact List.mem_cons_of_mem _ (by simpa using member)
    · simpa [same] using member
  rcases stepped with stepped | stepped
  · simp only [step] at stepped
    cases shape : state.todo party with
    | nil => simp [shape] at stepped
    | cons operation rest =>
      rw [shape] at stepped
      have locking : ∀ locked, operation.locks = some locked →
          Function.update state.holder locked (some party) key = some p →
          state.holder key = some p ∨ ∃ found ∈ state.todo p, found.locks = some key := by
        intro locked locks holds
        by_cases same : key = locked
        · subst same
          obtain rfl : party = p := by simpa using holds
          exact .inr ⟨operation,by rw [shape]; simp,locks⟩
        · exact .inl (by simpa [same] using holds)
      cases operation with
      | lock locked | timedLock locked =>
        simp only [Option.ite_none_right_eq_some,Option.some.injEq] at stepped
        obtain ⟨-,rfl⟩ := stepped
        rcases busy with holds | later
        · exact locking locked rfl holds
        · exact .inr (kept shape later)
      | unlock freed =>
        cases stepped
        rcases busy with holds | later
        · refine .inl ?_
          by_cases same : key = freed
          · subst same
            simp at holds
          · simpa [same] using holds
        · exact .inr (kept shape later)
  · simp only [step] at stepped
    split at stepped
    · next locked freed rest shape =>
      simp only [Option.ite_none_right_eq_some,Option.some.injEq] at stepped
      obtain ⟨-,rfl⟩ := stepped
      refine busy.imp_right fun ⟨found,member,locks⟩ => ⟨found,?_,locks⟩
      by_cases same : p = party
      · subst same
        rw [shape]
        exact List.mem_cons_of_mem _ (List.mem_cons_of_mem _ (by simpa using member))
      · simpa [same] using member
    · cases stepped

private theorem step_acyclic {next : State Party Key} {event : Event Party Key} (inv : InOrder own state)
    (fits : Fits own state event) (stepped : step state event = some next) :
    ∀ party, ¬ TransGen (Targets own next) party party := by
  cases event with
  | start party operations =>
    simp only [step,Option.ite_none_right_eq_some,Option.some.injEq] at stepped
    obtain ⟨done,rfl⟩ := stepped
    refine acyclic_of_added party (fun other => ∃ key, own other = some key ∧ own party ≠ some key ∧
      ∃ operation ∈ operations, operation.locks = some key) ?_ ?_ inv.acyclic
    · rintro p q ⟨key,owns,foreign,busy⟩
      by_cases same : p = party
      · subst same
        rcases busy with holds | later
        · exact .inl ⟨key,owns,foreign,.inl holds⟩
        · exact .inr ⟨rfl,key,owns,foreign,by simpa using later⟩
      · exact .inl ⟨key,owns,foreign,by simpa [same] using busy⟩
    · rintro other ⟨key,owns,foreign,locks⟩
      exact fits.2 other key owns foreign locks
  | interrupt party operations =>
    simp only [step,Option.some.injEq] at stepped
    obtain rfl := stepped
    intro start cycle
    refine inv.acyclic start (TransGen.mono ?_ _ _ cycle)
    rintro p q ⟨key,owns,foreign,busy⟩
    refine ⟨key,owns,foreign,busy.imp_right fun ⟨operation,member,locks⟩ => ?_⟩
    by_cases same : p = party
    · subst same
      rcases List.mem_append.mp (by simpa using member) with new | old
      · exact absurd (fits.2 operation new key locks) foreign
      · exact ⟨operation,old,locks⟩
    · exact ⟨operation,by simpa [same] using member,locks⟩
  | advance party =>
    exact fun start cycle => inv.acyclic start (TransGen.mono (fun _ _ => advance_targets (.inl stepped)) _ _ cycle)
  | giveUp party =>
    exact fun start cycle => inv.acyclic start (TransGen.mono (fun _ _ => advance_targets (.inr stepped)) _ _ cycle)

/-- A fitting step keeps the order. -/
theorem step_inOrder {next : State Party Key} {event : Event Party Key} (inv : InOrder own state)
    (fits : Fits own state event) (stepped : step state event = some next) : InOrder own next :=
  ⟨step_ordered inv.ordered fits stepped,step_acyclic inv fits stepped⟩

end Rules

end Vexjine.LockPrograms
