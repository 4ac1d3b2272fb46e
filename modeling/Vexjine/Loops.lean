import Mathlib.Tactic

/-!
# Loops over lists

Loops whose body sets a field, keeps the first item of a key, or may fail, and what is
known of their state at the end.
-/

/-! ## Options of which the last one wins

A loop over options of which some say what a field becomes. At its end the field is what the last of these said. -/

namespace Vexjine.LastWins

variable {Option' State Value : Type*}

/-- What the last option says that says something. -/
def last (said : Option' → Option Value) (options : List Option') : Option Value := (options.filterMap said).getLast?

theorem last_append_singleton (said : Option' → Option Value) (options : List Option') (option : Option') :
    last said (options ++ [option]) = (said option).or (last said options) := by
  rw [last,List.filterMap_append]
  cases known : said option with
  | none => simp [last,known]
  | some value => simp [known]

theorem last_map {Other : Type*} (convert : Value → Other) (said : Option' → Option Value) (options : List Option') :
    last (fun option => (said option).map convert) options = (last said options).map convert := by
  induction options using List.reverseRecOn with
  | nil => rfl
  | append_singleton options option ih =>
    rw [last_append_singleton,last_append_singleton,ih]
    cases said option with
    | none => rfl
    | some value => rfl

theorem field_foldl {said : Option' → Option Value} {step : State → Option' → State} {field : State → Value}
    {options : List Option'} {start : State}
    (sets : ∀ option ∈ options, ∀ state, field (step state option) = (said option).getD (field state)) :
    field (options.foldl step start) = (last said options).getD (field start) := by
  induction options using List.reverseRecOn with
  | nil => rfl
  | append_singleton options option ih =>
    rw [List.foldl_append,List.foldl_cons,List.foldl_nil,last_append_singleton,sets option (by simp),
      ih fun other member => sets other (List.mem_append_left _ member)]
    cases said option with
    | none => rfl
    | some value => rfl

end Vexjine.LastWins

/-! ## Maps that keep the first item of a key

Items inserted one after the other, where an item whose key is there already changes nothing: what is found for a key,
and which items are in the map. -/

namespace Vexjine.FirstWins

variable {Item Key : Type*} [DecidableEq Key] (key : Item → Key)

def insert (map : List Item) (item : Item) : List Item :=
  if map.any fun other => key other = key item then map else map ++ [item]

variable {key}

theorem insert_of_mem {map : List Item} {other item : Item} (member : other ∈ map) (same : key other = key item) :
    insert key map item = map := by
  rw [insert,if_pos]
  exact List.any_eq_true.mpr ⟨other,member,by simpa using same⟩

theorem insert_of_new {map : List Item} {item : Item} (new : ∀ other ∈ map, key other ≠ key item) :
    insert key map item = map ++ [item] := by
  rw [insert,if_neg]
  simpa using new

/-- The item that is found for a key is the first one inserted with it. -/
theorem find?_foldl (items map : List Item) (k : Key) :
    (items.foldl (insert key) map).find? (fun item => key item = k) = (map ++ items).find? fun item => key item = k := by
  induction items generalizing map with
  | nil => simp
  | cons item items ih =>
    rw [List.foldl_cons,ih]
    by_cases present : ∃ other ∈ map, key other = key item
    · obtain ⟨other,member,same⟩ := present
      rw [insert_of_mem member same,List.find?_append,List.find?_append,List.find?_cons]
      by_cases sought : key item = k
      · have found : (map.find? fun item => key item = k).isSome := by
          rw [List.find?_isSome]
          exact ⟨other,member,by simpa using same.trans sought⟩
        obtain ⟨first,found⟩ := Option.isSome_iff_exists.mp found
        simp [found]
      · simp [sought]
    · push Not at present
      rw [insert_of_new present,List.append_assoc,List.singleton_append]

/-- An item is in the map when there was none of its key in it, and it is the first one inserted with it. -/
theorem mem_foldl_iff (items map : List Item) (item : Item) :
    item ∈ items.foldl (insert key) map ↔ item ∈ map ∨
      (∀ other ∈ map, key other ≠ key item) ∧ items.find? (fun other => key other = key item) = some item := by
  induction items generalizing map with
  | nil => simp
  | cons next items ih =>
    rw [List.foldl_cons,ih,List.find?_cons]
    by_cases present : ∃ other ∈ map, key other = key next
    · obtain ⟨other,member,same⟩ := present
      rw [insert_of_mem member same]
      by_cases sought : key next = key item
      · have notNew : ¬ ∀ other ∈ map, key other ≠ key item := fun new => new other member (same.trans sought)
        simp only [notNew,false_and]
      · simp [sought]
    · push Not at present
      rw [insert_of_new present]
      by_cases sought : key next = key item
      · have new : ∀ other ∈ map, key other ≠ key item := fun other member => sought ▸ present other member
        simp only [List.mem_append,List.mem_singleton,sought,decide_true,Option.some.injEq]
        constructor
        · rintro ((member | rfl) | ⟨absent,-⟩)
          · exact .inl member
          · exact .inr ⟨new,rfl⟩
          · exact absurd sought (absent next (.inr rfl))
        · rintro (member | ⟨-,rfl⟩)
          · exact .inl (.inl member)
          · exact .inl (.inr rfl)
      · have notNext : item ≠ next := fun same => sought (congrArg key same.symm)
        simp [sought,notNext,or_imp,forall_and]

/-- A key occurs once when there is exactly one item with it. -/
theorem count_eq_one_iff {items : List Item} (nodup : items.Nodup) (k : Key) :
    (items.map key).count k = 1 ↔ ∃ item ∈ items, key item = k ∧ ∀ other ∈ items, key other = k → other = item := by
  have counted : (items.map key).count k = (items.filter fun item => key item = k).length := by
    rw [List.count,List.countP_map,List.countP_eq_length_filter]
    rfl
  rw [counted,List.length_eq_one_iff]
  constructor
  · rintro ⟨item,only⟩
    have member : item ∈ items.filter fun item => key item = k := only ▸ List.mem_singleton_self item
    obtain ⟨member,same⟩ := List.mem_filter.mp member
    refine ⟨item,member,by simpa using same,fun other otherMember otherSame => ?_⟩
    exact List.mem_singleton.mp (only ▸ List.mem_filter.mpr ⟨otherMember,by simpa using otherSame⟩)
  · rintro ⟨item,member,same,only⟩
    refine ⟨item,List.perm_singleton.mp ?_⟩
    refine (List.perm_ext_iff_of_nodup (nodup.filter _) (List.nodup_singleton item)).mpr fun other => ?_
    rw [List.mem_filter,List.mem_singleton]
    constructor
    · rintro ⟨otherMember,otherSame⟩
      exact only other otherMember (by simpa using otherSame)
    · rintro rfl
      exact ⟨member,by simpa using same⟩

end Vexjine.FirstWins

/-! ## Loops that may fail

A loop over a list whose body may fail: what a total body establishes by the end, what holds between the start and
the end of a loop that did not fail, and on which elements its body did not fail. -/

namespace Vexjine.FallibleLoops

universe u

variable {State : Type u} {Index Failure : Type*} {body : State → Index → Except Failure State}

/-- A property of the position, kept by a body that does not fail, holds at the end, which is reached. -/
theorem total (body : State → ℕ → Except Failure State) (property : ℕ → State → Prop) (count : ℕ) (start : State)
    (initial : property 0 start)
    (step : ∀ i < count, ∀ state, property i state → ∃ next, body state i = .ok next ∧ property (i + 1) next) :
    ∃ final, (List.range count).foldlM body start = .ok final ∧ property count final := by
  induction count with
  | zero => exact ⟨start,rfl,initial⟩
  | succ count ih =>
    obtain ⟨state,ended,holds⟩ := ih fun i inside => step i (inside.trans (Nat.lt_succ_self count))
    obtain ⟨final,stepped,atEnd⟩ := step count (Nat.lt_succ_self count) state holds
    refine ⟨final,?_,atEnd⟩
    rw [List.range_succ,List.foldlM_append,ended]
    simp only [List.foldlM_cons,List.foldlM_nil,bind_pure]
    exact stepped

theorem bind_ok_iff {First Second : Type u} {first : Except Failure First} {second : First → Except Failure Second}
    {result : Second} :
    (first >>= second) = .ok result ↔ ∃ value, first = .ok value ∧ second value = .ok result := by
  cases first with
  | error failure => simp [bind,Except.bind]
  | ok value => simp [bind,Except.bind]

theorem mapM_ok_iff {Element Value : Type u} (f : Element → Except Failure Value) (elements : List Element)
    (values : List Value) :
    elements.mapM f = .ok values ↔ List.Forall₂ (fun element value => f element = .ok value) elements values := by
  induction elements generalizing values with
  | nil => cases values <;> simp [pure,Except.pure]
  | cons element elements ih =>
    rw [List.mapM_cons,bind_ok_iff]
    constructor
    · rintro ⟨value,applied,mapped⟩
      obtain ⟨rest,restMapped,same⟩ := bind_ok_iff.mp mapped
      cases same
      exact .cons applied ((ih rest).mp restMapped)
    · rintro (_ | ⟨applied,mapped⟩)
      exact ⟨_,applied,bind_ok_iff.mpr ⟨_,(ih _).mpr mapped,rfl⟩⟩

theorem cons_ok_iff {indices : List Index} {index : Index} {start final : State} :
    (index :: indices).foldlM body start = .ok final ↔
      ∃ next, body start index = .ok next ∧ indices.foldlM body next = .ok final := by
  rw [List.foldlM_cons]
  exact bind_ok_iff

/-- A reflexive and transitive relation between the states before and after the body holds between the ends of the loop. -/
theorem related (relation : State → State → Prop) (refl : ∀ state, relation state state)
    (trans : ∀ {first second third}, relation first second → relation second third → relation first third)
    (step : ∀ {state next index}, body state index = .ok next → relation state next) {indices : List Index}
    {start final : State} (ended : indices.foldlM body start = .ok final) : relation start final := by
  induction indices generalizing start with
  | nil => exact Except.ok.inj ended ▸ refl start
  | cons index indices ih =>
    obtain ⟨next,stepped,rest⟩ := cons_ok_iff.mp ended
    exact trans (step stepped) (ih rest)

/-- When the body changes nothing wherever it does not fail, it does not fail on any element at the start. -/
theorem idle (step : ∀ {state next index}, body state index = .ok next → next = state) {indices : List Index}
    {start final : State} (ended : indices.foldlM body start = .ok final) {index : Index} (member : index ∈ indices) :
    body start index = .ok start := by
  induction indices with
  | nil => simp at member
  | cons first indices ih =>
    obtain ⟨next,stepped,rest⟩ := cons_ok_iff.mp ended
    obtain rfl := step stepped
    rcases List.mem_cons.mp member with rfl | later
    · exact stepped
    · exact ih rest later

end Vexjine.FallibleLoops
