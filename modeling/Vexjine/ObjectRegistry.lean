import Mathlib.Tactic

/-!
# The object registry

`ObjectRegistry` keeps for each object the identifiers of the threads that wait
on it, in a `vector` that grows and is read at its end. The source's keys are of
type `int`; the operations do not depend on it and are stated for any key.
-/

namespace Vexjine
set_option linter.unusedSimpArgs false

/-- An `unordered_map<int, ObjectRegistryInfo *>`; of an entry only the thread identifiers. -/
abbrev ObjectRegistry (Key : Type) := Key → Option (List Int64)

namespace ObjectRegistry
variable {Key : Type}

/-- The last thread identifier of an object, or zero. -/
def findNext (registry : ObjectRegistry Key) (objectId : Key) : Int64 :=
  match registry objectId with
  | some threadsWaiting => threadsWaiting.getLast?.getD 0
  | none => 0

/-- The threads of an object; an object without an entry has none. -/
def threadsWaiting (registry : ObjectRegistry Key) (objectId : Key) : List Int64 :=
  (registry objectId).getD []

theorem findNext_eq (registry : ObjectRegistry Key) (objectId : Key) :
    registry.findNext objectId = (registry.threadsWaiting objectId).getLast?.getD 0 := by
  unfold findNext threadsWaiting
  cases registry objectId <;> rfl

variable [DecidableEq Key]

/-- The same identifier, which is removed. -/
def getNext (registry : ObjectRegistry Key) (objectId : Key) : Int64 × ObjectRegistry Key :=
  match registry objectId with
  | some threadsWaiting =>
    match threadsWaiting.getLast? with
    | some threadId => (threadId,Function.update registry objectId (some threadsWaiting.dropLast))
    | none => (0,registry)
  | none => (0,registry)

/-- Removes the first record of the thread. -/
def erase (registry : ObjectRegistry Key) (objectId : Key) (threadId : Int64) : ObjectRegistry Key :=
  match registry objectId with
  | some threadsWaiting => Function.update registry objectId (some (threadsWaiting.erase threadId))
  | none => registry

def insert (registry : ObjectRegistry Key) (objectId : Key) (threadId : Int64) : ObjectRegistry Key :=
  match registry objectId with
  | some threadsWaiting => Function.update registry objectId (some (threadsWaiting ++ [threadId]))
  | none => Function.update registry objectId (some [threadId])

/-! ## Their effect on the waiting threads -/

variable (registry : ObjectRegistry Key) (objectId other : Key) (threadId : Int64)

@[simp] theorem threadsWaiting_update (threads : List Int64) :
    threadsWaiting (Function.update registry objectId (some threads)) other =
      if other = objectId then threads else registry.threadsWaiting other := by
  unfold threadsWaiting
  by_cases same : other = objectId
  · simp [same]
  · simp [same]

theorem getNext_fst : (registry.getNext objectId).1 = (registry.threadsWaiting objectId).getLast?.getD 0 := by
  unfold getNext threadsWaiting
  cases registry objectId with
  | none => rfl
  | some threads =>
    dsimp only [Option.getD_some]
    cases threads.getLast? <;> rfl

theorem threadsWaiting_getNext : threadsWaiting (registry.getNext objectId).2 other =
    if other = objectId then (registry.threadsWaiting objectId).dropLast else registry.threadsWaiting other := by
  unfold getNext
  cases found : registry objectId with
  | none =>
    by_cases same : other = objectId
    · subst same
      simp [threadsWaiting,found]
    · simp [same]
  | some threads =>
    have waiting : registry.threadsWaiting objectId = threads := by simp [threadsWaiting,found]
    cases last : threads.getLast? with
    | none =>
      have empty : threads = [] := List.getLast?_eq_none_iff.mp last
      by_cases same : other = objectId
      · subst same
        simp [last,waiting,empty]
      · simp [last,same]
    | some threadId => simp [last,waiting]

theorem threadsWaiting_erase : threadsWaiting (registry.erase objectId threadId) other =
    if other = objectId then (registry.threadsWaiting objectId).erase threadId else registry.threadsWaiting other := by
  unfold erase
  cases found : registry objectId with
  | none =>
    by_cases same : other = objectId
    · subst same
      simp [threadsWaiting,found]
    · simp [same]
  | some threads =>
    have waiting : registry.threadsWaiting objectId = threads := by simp [threadsWaiting,found]
    simp [waiting]

theorem threadsWaiting_insert : threadsWaiting (registry.insert objectId threadId) other =
    if other = objectId then registry.threadsWaiting objectId ++ [threadId] else registry.threadsWaiting other := by
  unfold insert
  cases found : registry objectId with
  | none =>
    have waiting : registry.threadsWaiting objectId = [] := by simp [threadsWaiting,found]
    simp [waiting]
  | some threads =>
    have waiting : registry.threadsWaiting objectId = threads := by simp [threadsWaiting,found]
    simp [waiting]

end ObjectRegistry

end Vexjine
