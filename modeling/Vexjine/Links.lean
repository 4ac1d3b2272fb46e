import Mathlib.Data.List.Nodup
import Mathlib.Data.List.NodupEquivFin
import Mathlib.Logic.Function.Basic
import Mathlib.Tactic

/-!
# Chains and forests

Structures that are linked by addresses or indices: cells that point to the next one, and nodes that
point to their parent.
-/

/-! ## Singly linked chains

Cells of a heap hold a value and the address of the next cell. A chain is a list of cells, each of which points
to the next one, from a first address to a last one, where `none` is the null pointer. The rules say what a chain
keeps of a change of the heap, how chains are joined and split, and how the last cell of one is redirected. -/

namespace Vexjine.LinkedLists

structure Cell (α : Type*) where
  data : α
  next : Option Nat

abbrev Cells (α : Type*) := Nat → Option (Cell α)

variable {α : Type*}

/-- The cells, listed with their addresses, lead from the first address to the last one. -/
def Chain (cells : Cells α) : Option Nat → List (Nat × α) → Option Nat → Prop
  | first, [], last => first = last
  | first, (address,data) :: rest, last =>
    first = some address ∧ ∃ next, cells address = some ⟨data,next⟩ ∧ Chain cells next rest last

def addresses (chain : List (Nat × α)) : List Nat := chain.map Prod.fst

section Rules
variable {cells : Cells α} {first last middle : Option Nat} {chain front back : List (Nat × α)} {address : Nat} {data : α}

@[simp] theorem addresses_nil : addresses ([] : List (Nat × α)) = [] := rfl

@[simp] theorem addresses_cons (entry : Nat × α) : addresses (entry :: chain) = entry.1 :: addresses chain := rfl

@[simp] theorem addresses_append : addresses (front ++ back) = addresses front ++ addresses back := List.map_append

@[simp] theorem chain_nil : Chain cells first [] last ↔ first = last := Iff.rfl

theorem chain_cons : Chain cells first ((address,data) :: chain) last ↔
    first = some address ∧ ∃ next, cells address = some ⟨data,next⟩ ∧ Chain cells next chain last := Iff.rfl

theorem chain_append : Chain cells first (front ++ back) last ↔
    ∃ middle, Chain cells first front middle ∧ Chain cells middle back last := by
  induction front generalizing first with
  | nil => simp
  | cons entry rest ih =>
    rcases entry with ⟨address,data⟩
    simp only [List.cons_append,chain_cons,ih]
    constructor
    · rintro ⟨start,next,found,middle,before,after⟩
      exact ⟨middle,⟨start,next,found,before⟩,after⟩
    · rintro ⟨middle,⟨start,next,found,before⟩,after⟩
      exact ⟨start,next,found,middle,before,after⟩

/-- A chain is not changed by what happens outside it. -/
theorem chain_frame {other : Cells α} (same : ∀ address ∈ addresses chain, other address = cells address)
    (linked : Chain cells first chain last) : Chain other first chain last := by
  induction chain generalizing first with
  | nil => exact linked
  | cons entry rest ih =>
    rcases entry with ⟨address,data⟩
    obtain ⟨start,next,found,remaining⟩ := linked
    refine ⟨start,next,?_,?_⟩
    · exact (same address (by simp)).trans found
    · apply ih _ remaining
      intro later member
      exact same later (by simp [member])

theorem chain_update (outside : address ∉ addresses chain) (cell : Option (Cell α))
    (linked : Chain cells first chain last) : Chain (Function.update cells address cell) first chain last := by
  apply chain_frame _ linked
  intro other member
  apply Function.update_of_ne
  intro same
  exact outside (same ▸ member)

theorem chain_head (linked : Chain cells first chain none) : first = (addresses chain).head? := by
  cases chain with
  | nil => exact linked
  | cons entry rest => exact linked.1

/-- The last cell of a chain, redirected. -/
theorem chain_redirect {next : Option Nat} (fresh : address ∉ addresses front)
    (linked : Chain cells first (front ++ [(address,data)]) last) :
    Chain (Function.update cells address (some ⟨data,next⟩)) first (front ++ [(address,data)]) next := by
  rw [chain_append] at linked ⊢
  obtain ⟨middle,before,start,_,_,_⟩ := linked
  exact ⟨middle,chain_update fresh _ before,start,next,Function.update_self _ _ _,rfl⟩

/-- The cell that a chain ends with. -/
theorem chain_last (linked : Chain cells first (front ++ [(address,data)]) last) :
    cells address = some ⟨data,last⟩ := by
  obtain ⟨middle,_,_,next,found,rfl⟩ := chain_append.mp linked
  exact found

/-- Cells below a bound are no more than the bound. -/
theorem length_le_of_bounded {bound : Nat} (distinct : (addresses chain).Nodup)
    (below : ∀ address ∈ addresses chain, address < bound) : chain.length ≤ bound := by
  have within : addresses chain ⊆ List.range bound := by
    intro address member
    exact List.mem_range.mpr (below address member)
  have counted := (List.subperm_of_subset distinct within).length_le
  simpa [addresses] using counted

end Rules

end Vexjine.LinkedLists

/-! ## Forests of parent pointers

A forest is a list of labels, each with the index of its parent, if it has one. In
a forest whose parents come before their children the way up from a node is found
with no more steps than the forest has nodes, new nodes leave it as it was, and no
two nodes have the same one if no parent has two children of one label. -/

namespace Vexjine.ParentForests

variable {α : Type*} {forest : List (α × Option Nat)}

/-- The labels on the way up from a node, of which at most the given number. -/
def pathIn (forest : List (α × Option Nat)) : Nat → Option Nat → List α
  | 0,_ | _ + 1,none => []
  | depth + 1,some node =>
    match forest[node]? with
    | none => []
    | some (label,parent) => label :: pathIn forest depth parent

/-- The labels on the way up from a node. -/
def path (forest : List (α × Option Nat)) (node : Option Nat) : List α := pathIn forest forest.length node

/-- Every parent comes before its children. -/
def Rooted (forest : List (α × Option Nat)) : Prop :=
  ∀ (node : Nat) (label : α) (parent : Nat), forest[node]? = some (label,some parent) → parent < node

theorem exists_of_lt {node : Nat} (inside : node < forest.length) :
    ∃ label parent, forest[node]? = some (label,parent) :=
  ⟨_,_,List.getElem?_eq_getElem inside⟩

theorem lt_length_of_some {node : Nat} {entry : α × Option Nat} (found : forest[node]? = some entry) :
    node < forest.length := (List.getElem?_eq_some_iff.mp found).1

/-- More steps than the index of the node find nothing more. -/
theorem pathIn_depth (rooted : Rooted forest) {first second : Nat} {node : Option Nat}
    (enough : ∀ index ∈ node, index < first) (enough' : ∀ index ∈ node, index < second) :
    pathIn forest first node = pathIn forest second node := by
  induction first generalizing second node with
  | zero =>
    cases node with
    | none => cases second <;> rfl
    | some index => exact absurd (enough index rfl) (Nat.not_lt_zero index)
  | succ first ih =>
    cases node with
    | none => cases second <;> rfl
    | some index =>
      have inside := enough index rfl
      cases second with
      | zero => exact absurd (enough' index rfl) (Nat.not_lt_zero index)
      | succ second =>
        have inside' := enough' index rfl
        simp only [pathIn]
        cases found : forest[index]? with
        | none => rfl
        | some entry =>
          obtain ⟨label,parent⟩ := entry
          have above : ∀ p ∈ parent, p < index := by
            rintro p rfl
            exact rooted index label p found
          show label :: pathIn forest first parent = label :: pathIn forest second parent
          congr 1
          apply ih
          · intro p member
            have := above p member
            omega
          · intro p member
            have := above p member
            omega

theorem path_none : path forest none = [] := by
  unfold path
  cases forest.length <;> rfl

theorem path_some (rooted : Rooted forest) {node : Nat} {label : α} {parent : Option Nat}
    (found : forest[node]? = some (label,parent)) : path forest (some node) = label :: path forest parent := by
  have inside := lt_length_of_some found
  unfold path
  obtain ⟨depth,size⟩ : ∃ depth, forest.length = depth + 1 := ⟨forest.length - 1,by omega⟩
  rw [size]
  simp only [pathIn,found]
  congr 1
  apply pathIn_depth rooted
  · rintro p rfl
    have := rooted node label p found
    omega
  · rintro p rfl
    have := rooted node label p found
    omega

theorem rooted_concat (rooted : Rooted forest) (label : α) {parent : Option Nat}
    (inside : ∀ p ∈ parent, p < forest.length) : Rooted (forest ++ [(label,parent)]) := by
  intro node label' above found
  rw [List.getElem?_append] at found
  split at found
  · exact rooted node label' above found
  · rename_i later
    have same := List.mem_of_getElem? found
    rw [List.mem_singleton,Prod.mk.injEq] at same
    have := inside above same.2.symm
    omega

/-- A new node leaves the way up from the others as it was. -/
theorem path_concat (rooted : Rooted forest) (label : α) {parent : Option Nat}
    (inside : ∀ p ∈ parent, p < forest.length) {node : Option Nat} (old : ∀ index ∈ node, index < forest.length) :
    path (forest ++ [(label,parent)]) node = path forest node := by
  have grown := rooted_concat rooted label inside
  suffices ∀ bound, ∀ node : Option Nat, (∀ index ∈ node, index < bound ∧ index < forest.length) →
      path (forest ++ [(label,parent)]) node = path forest node from
    this forest.length node fun index member => ⟨old index member,old index member⟩
  intro bound
  induction bound with
  | zero =>
    intro node lower
    cases node with
    | none => rw [path_none,path_none]
    | some index => exact absurd (lower index rfl).1 (Nat.not_lt_zero index)
  | succ bound ih =>
    intro node lower
    cases node with
    | none => rw [path_none,path_none]
    | some index =>
      obtain ⟨near,stored⟩ := lower index rfl
      obtain ⟨own,above,found⟩ := exists_of_lt stored
      have found' : (forest ++ [(label,parent)])[index]? = some (own,above) := by
        rw [List.getElem?_append_left stored,found]
      rw [path_some rooted found,path_some grown found',ih]
      rintro p rfl
      have := rooted index own p found
      omega

/-- Where no label occurs twice under one parent, a node is known by its way up. -/
theorem eq_of_path_eq (rooted : Rooted forest) (apart : forest.Nodup) {first second : Option Nat}
    (inside : ∀ index ∈ first, index < forest.length) (inside' : ∀ index ∈ second, index < forest.length)
    (same : path forest first = path forest second) : first = second := by
  generalize labels : path forest first = way at same
  induction way generalizing first second with
  | nil =>
    have empty : ∀ node : Option Nat, (∀ index ∈ node, index < forest.length) → path forest node = [] → node = none := by
      intro node within ended
      cases node with
      | none => rfl
      | some index =>
        obtain ⟨own,above,found⟩ := exists_of_lt (within index rfl)
        rw [path_some rooted found] at ended
        exact absurd ended (List.cons_ne_nil _ _)
    rw [empty first inside labels,empty second inside' same.symm]
  | cons label way ih =>
    cases first with
    | none => rw [path_none] at labels; exact absurd labels.symm (List.cons_ne_nil _ _)
    | some a =>
      cases second with
      | none => rw [path_none] at same; exact absurd same (List.cons_ne_nil _ _)
      | some b =>
        obtain ⟨labelA,parentA,foundA⟩ := exists_of_lt (inside a rfl)
        obtain ⟨labelB,parentB,foundB⟩ := exists_of_lt (inside' b rfl)
        rw [path_some rooted foundA,List.cons.injEq] at labels
        rw [path_some rooted foundB,List.cons.injEq] at same
        have parents : parentA = parentB := by
          apply ih _ _ labels.2 same.2
          · rintro p rfl
            have := rooted a labelA p foundA
            have := inside a rfl
            omega
          · rintro p rfl
            have := rooted b labelB p foundB
            have := inside' b rfl
            omega
        have entries : forest[a]? = forest[b]? := by
          rw [foundA,foundB,labels.1,same.1,parents]
        rw [(List.getElem?_inj (inside a rfl) apart).mp entries]

end Vexjine.ParentForests
