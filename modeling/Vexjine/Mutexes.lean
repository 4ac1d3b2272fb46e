import Mathlib.Tactic

/-!
# Programs over data behind a mutex

Programs that lock and unlock one non-recursive mutex, when they return, and how they
find and leave it.
-/

/-! ## Reads, writes and locks

A program reads and writes its data and locks and unlocks the mutex. Locking a
mutex that is already held never returns, so such a program has no result. A
program keeps the discipline on some data when, started with the mutex free, it
returns and leaves the mutex free. -/

namespace Vexjine.Mutexes

variable {Data Result Next : Type}

/-- Data and whether its mutex is held. -/
structure Guarded (Data : Type) where
  data : Data
  held : Bool := false

/-- `none` is a program that waits for ever. -/
abbrev Locking (Data : Type) := StateT (Guarded Data) Option

def lock : Locking Data Unit := fun state => if state.held then none else some ((),{ state with held := true })

def unlock : Locking Data Unit := fun state => some ((),{ state with held := false })

def read (field : Data → Result) : Locking Data Result := fun state => some (field state.data,state)

def write (change : Data → Data) : Locking Data Unit := fun state => some ((),{ state with data := change state.data })

@[simp] theorem run_lock_free (data : Data) : lock ⟨data,false⟩ = some ((),⟨data,true⟩) := rfl

@[simp] theorem run_lock_held (data : Data) : lock ⟨data,true⟩ = none := rfl

@[simp] theorem run_unlock (state : Guarded Data) : unlock state = some ((),⟨state.data,false⟩) := rfl

@[simp] theorem run_read (field : Data → Result) (state : Guarded Data) :
    read field state = some (field state.data,state) := rfl

@[simp] theorem run_write (change : Data → Data) (state : Guarded Data) :
    write change state = some ((),⟨change state.data,state.held⟩) := rfl

@[simp] theorem run_pure (result : Result) (state : Guarded Data) :
    (pure result : Locking Data Result) state = some (result,state) := rfl

@[simp] theorem run_bind (program : Locking Data Result) (next : Result → Locking Data Next) (state : Guarded Data) :
    (program >>= next) state = (program state).bind fun step => next step.1 step.2 := rfl

@[simp] theorem run_map (change : Result → Next) (program : Locking Data Result) (state : Guarded Data) :
    (change <$> program) state = (program state).map fun step => (change step.1,step.2) := by
  cases found : program state with
  | none => simp [Functor.map,StateT.map,found]
  | some step => simp [Functor.map,StateT.map,found]

@[simp] theorem run_ite (condition : Prop) [Decidable condition] (first second : Locking Data Result)
    (state : Guarded Data) :
    (if condition then first else second) state = if condition then first state else second state := by
  by_cases holds : condition <;> simp [holds]

/-- Started with the mutex free, the program returns with the mutex free. -/
def Disciplined (program : Locking Data Result) (data : Data) : Prop :=
  ∃ result after, program ⟨data,false⟩ = some (result,⟨after,false⟩)

theorem disciplined_of_run {program : Locking Data Result} {data after : Data} {result : Result}
    (executed : program ⟨data,false⟩ = some (result,⟨after,false⟩)) : Disciplined program data :=
  ⟨result,after,executed⟩

theorem not_disciplined_of_stuck {program : Locking Data Result} {data : Data}
    (stuck : program ⟨data,false⟩ = none) : ¬ Disciplined program data := by
  rintro ⟨result,after,executed⟩
  rw [stuck] at executed
  cases executed

end Vexjine.Mutexes

/-! ## Where a program finds and leaves a mutex

For a program whose use of the mutex does not depend on its data: it leaves the
mutex held or free when it finds it so, or never returns. An unlock that is
checked has no result on a mutex that is free. -/

namespace Vexjine.MutexTriples
open Vexjine.Mutexes

variable {Data Result Next : Type}

/-- An unlock of a mutex that is free is an error. -/
def checkedUnlock : Locking Data Unit := fun state => if state.held then some ((),{ state with held := false }) else none

@[simp] theorem run_checkedUnlock_held (data : Data) : checkedUnlock ⟨data,true⟩ = some ((),⟨data,false⟩) := rfl

@[simp] theorem run_checkedUnlock_free (data : Data) : checkedUnlock ⟨data,false⟩ = none := rfl

/-- Started with the mutex as in `before`, the program returns and leaves it as in `after`. -/
def Leaves (program : Locking Data Result) (before after : Bool) : Prop :=
  ∀ data, ∃ result next, program ⟨data,before⟩ = some (result,⟨next,after⟩)

/-- Started with the mutex as in `before`, the program does not return. -/
def Stuck (program : Locking Data Result) (before : Bool) : Prop := ∀ data, program ⟨data,before⟩ = none

section Rules
variable {before middle after held : Bool} {program : Locking Data Result} {next : Result → Locking Data Next}

theorem leaves_pure (result : Result) : Leaves (pure result : Locking Data Result) held held :=
  fun data => ⟨result,data,rfl⟩

theorem leaves_read (field : Data → Result) : Leaves (read field) held held := fun data => ⟨field data,data,rfl⟩

theorem leaves_write (change : Data → Data) : Leaves (write change) held held := fun data => ⟨(),change data,rfl⟩

theorem leaves_lock : Leaves (lock : Locking Data Unit) false true := fun data => ⟨(),data,rfl⟩

theorem leaves_checkedUnlock : Leaves (checkedUnlock : Locking Data Unit) true false := fun data => ⟨(),data,rfl⟩

theorem leaves_bind (first : Leaves program before middle) (second : ∀ result, Leaves (next result) middle after) :
    Leaves (program >>= next) before after := by
  intro data
  obtain ⟨result,between,ran⟩ := first data
  obtain ⟨last,final,finished⟩ := second result between
  exact ⟨last,final,by rw [run_bind,ran]; exact finished⟩

theorem leaves_ite {condition : Prop} [Decidable condition] {first second : Locking Data Result}
    (holds : Leaves first before after) (fails : Leaves second before after) :
    Leaves (if condition then first else second) before after := by
  split
  · exact holds
  · exact fails

theorem stuck_lock : Stuck (lock : Locking Data Unit) true := fun _ => rfl

theorem stuck_checkedUnlock : Stuck (checkedUnlock : Locking Data Unit) false := fun _ => rfl

theorem stuck_bind_first (first : Stuck program before) : Stuck (program >>= next) before := by
  intro data
  rw [run_bind,first data]
  rfl

theorem stuck_bind (first : Leaves program before middle) (second : ∀ result, Stuck (next result) middle) :
    Stuck (program >>= next) before := by
  intro data
  obtain ⟨result,between,ran⟩ := first data
  rw [run_bind,ran]
  exact second result between

theorem stuck_ite {condition : Prop} [Decidable condition] {first second : Locking Data Result}
    (holds : Stuck first before) (fails : Stuck second before) :
    Stuck (if condition then first else second) before := by
  split
  · exact holds
  · exact fails

theorem disciplined_of_leaves (leaves : Leaves program false false) (data : Data) : Disciplined program data :=
  leaves data

theorem not_disciplined_of_stuck' (stuck : Stuck program false) (data : Data) : ¬ Disciplined program data :=
  not_disciplined_of_stuck (stuck data)

theorem disciplined_write_bind (change : Data → Data) (rest : Unit → Locking Data Next) (data : Data) :
    Disciplined (write change >>= rest) data ↔ Disciplined (rest ()) (change data) := Iff.rfl

end Rules

end Vexjine.MutexTriples
