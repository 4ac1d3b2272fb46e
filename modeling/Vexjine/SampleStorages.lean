import Mathlib.Tactic

/-!
# Storages for a limited number of samples

A storage counts all samples in an `unsigned int` and stores the first of them. Merging
copies the other operand's samples behind its own ones, and printing reads as many
samples as were counted.
-/

namespace Vexjine.SampleStorages

/-- A possible `MAXIMUM_SAMPLES_PER_MEASURE`, which is the length of an array and an `int`. -/
abbrev Limit := {length : Nat // 0 < length ∧ length < 2 ^ 31}

structure LimitedSamplesStorage (limit : Limit) where
  samples : BitVec 32
  storedSamples : List Int64
  full : storedSamples.length = limit.val

namespace LimitedSamplesStorage
variable {limit : Limit}

/-- A constructed storage with its array initialised. -/
def init (limit : Limit) : LimitedSamplesStorage limit :=
  { samples := 0, storedSamples := List.replicate limit.val 0, full := List.length_replicate }

def store (storage : LimitedSamplesStorage limit) (index : Nat) (sample : Int64) : LimitedSamplesStorage limit :=
  { storage with
    storedSamples := storage.storedSamples.set index sample
    full := List.length_set.trans storage.full }

def addSample (storage : LimitedSamplesStorage limit) (sample : Int64) : LimitedSamplesStorage limit :=
  let stored := if storage.samples.toNat < limit.val then storage.store storage.samples.toNat sample else storage
  { stored with samples := stored.samples + 1 }

/-- The loop of a merge, whose indices are `int` and never change; a negative one is outside of the array. -/
def copySamples (other : LimitedSamplesStorage limit) (count : Int) (count2 : Nat) :
    Nat → LimitedSamplesStorage limit → Option (LimitedSamplesStorage limit)
  | 0, _ => none
  | fuel + 1, storage =>
    if count < limit.val then
      if 0 ≤ count then
        other.storedSamples[count2]?.bind fun sample =>
          copySamples other count count2 fuel (storage.store count.toNat sample)
      else none
    else some storage

/-- `operator+=`. -/
def merge (storage other : LimitedSamplesStorage limit) (fuel : Nat) : Option (LimitedSamplesStorage limit) :=
  (copySamples other storage.samples.toInt 0 fuel storage).map fun copied =>
    { copied with samples := copied.samples + other.samples }

def printed (samples : List Int64) : String :=
  samples.foldl (fun outs sample => outs ++ "," ++ toString sample) ",,Stored samples:"

def printSamples (storage : LimitedSamplesStorage limit) : Option String :=
  ((List.range storage.samples.toNat).mapM fun i => storage.storedSamples[i]?).map printed

/-- The samples that a storage holds. -/
def contents (storage : LimitedSamplesStorage limit) : List Int64 := storage.storedSamples.take storage.samples.toNat

end LimitedSamplesStorage
open LimitedSamplesStorage

/-- Adding the samples in order to a new storage keeps the first of them. -/
def KeepsFirst (limit : Limit) (samples : List Int64) : Prop :=
  (samples.foldl addSample (init limit)).contents = samples.take limit.val

/-- Merging ends, with the samples of both operands up to the limit. -/
def Merges {limit : Limit} (storage other : LimitedSamplesStorage limit) : Prop :=
  ∃ fuel, ∃ merged ∈ storage.merge other fuel, merged.contents = (storage.contents ++ other.contents).take limit.val

/-- Printing reads and shows the stored samples. -/
def PrintsStored {limit : Limit} (storage : LimitedSamplesStorage limit) : Prop :=
  storage.printSamples = some (printed storage.contents)

/-! ## Adding -/

section Adding
variable {limit : Limit}

private theorem addSample_samples (storage : LimitedSamplesStorage limit) (sample : Int64) :
    (storage.addSample sample).samples = storage.samples + 1 := by
  simp only [addSample]
  split <;> rfl

private theorem added_samples (storage : LimitedSamplesStorage limit) (samples : List Int64) :
    (samples.foldl addSample storage).samples.toNat = (storage.samples.toNat + samples.length) % 2 ^ 32 := by
  induction samples generalizing storage with
  | nil => simp [Nat.mod_eq_of_lt storage.samples.isLt]
  | cons sample rest ih =>
    have one : (1 : BitVec 32).toNat = 1 := rfl
    simp only [List.foldl_cons,ih,addSample_samples,BitVec.toNat_add,List.length_cons,one]
    omega

private theorem addSample_contents (storage : LimitedSamplesStorage limit) (sample : Int64)
    (below : storage.samples.toNat + 1 < 2 ^ 32) :
    (storage.addSample sample).contents = (storage.contents ++ [sample]).take limit.val := by
  have counted : (storage.addSample sample).samples.toNat = storage.samples.toNat + 1 := by
    have modular := added_samples storage [sample]
    rwa [List.length_singleton,Nat.mod_eq_of_lt below] at modular
  have full := storage.full
  rw [contents,contents,counted]
  by_cases room : storage.samples.toNat < limit.val
  · have stored : (storage.addSample sample).storedSamples = storage.storedSamples.set storage.samples.toNat sample := by
      simp only [addSample,if_pos room]
      rfl
    have inside : storage.samples.toNat < storage.storedSamples.length := by omega
    have kept : (storage.storedSamples.take storage.samples.toNat ++ [sample]).length ≤ limit.val := by
      rw [List.length_append,List.length_take,List.length_singleton]
      omega
    rw [stored,List.take_of_length_le kept,List.take_add_one,List.take_set_of_le le_rfl,List.getElem?_set_self inside]
    rfl
  · have stored : (storage.addSample sample).storedSamples = storage.storedSamples := by
      simp only [addSample,if_neg room]
    have all (count : Nat) (reached : limit.val ≤ count) : storage.storedSamples.take count = storage.storedSamples :=
      List.take_of_length_le (by omega)
    rw [stored,all _ (by omega),all _ (not_lt.mp room),← full,List.take_left]

private theorem take_take_append {samples rest : List Int64} (length : Nat) :
    (samples.take length ++ rest).take length = (samples ++ rest).take length := by
  rw [List.take_append,List.take_append,List.take_take,min_self]
  rcases le_total length samples.length with reached | short
  · simp [List.length_take,min_eq_left reached,Nat.sub_eq_zero_of_le reached]
  · simp [List.length_take,min_eq_right short]

private theorem added_contents (storage : LimitedSamplesStorage limit) (samples : List Int64)
    (below : storage.samples.toNat + samples.length < 2 ^ 32) :
    (samples.foldl addSample storage).contents = (storage.contents ++ samples).take limit.val := by
  induction samples generalizing storage with
  | nil =>
    have full := storage.full
    rw [List.foldl_nil,List.append_nil,List.take_of_length_le]
    simp only [contents,List.length_take]
    omega
  | cons sample rest ih =>
    simp only [List.length_cons] at below
    have next := added_samples storage [sample]
    rw [List.length_singleton,Nat.mod_eq_of_lt (by omega)] at next
    have later : (storage.addSample sample).samples.toNat + rest.length < 2 ^ 32 := by
      have same : (storage.addSample sample).samples.toNat = storage.samples.toNat + 1 := next
      omega
    rw [List.foldl_cons,ih _ later,addSample_contents storage sample (by omega),take_take_append,List.append_assoc,
      List.singleton_append]

/-- The count begins again after 2 ^ 32 samples, and so does the array. -/
theorem contents_added (samples : List Int64) :
    (samples.foldl addSample (init limit)).contents =
      (samples.drop (samples.length / 2 ^ 32 * 2 ^ 32)).take limit.val := by
  have counted : samples.length / 2 ^ 32 * 2 ^ 32 ≤ samples.length := Nat.div_mul_le_self _ _
  have length : (samples.drop (samples.length / 2 ^ 32 * 2 ^ 32)).length < 2 ^ 32 := by
    rw [List.length_drop]
    omega
  have wrapped : ((samples.take (samples.length / 2 ^ 32 * 2 ^ 32)).foldl addSample (init limit)).samples.toNat = 0 := by
    rw [added_samples,List.length_take,min_eq_left counted]
    simp [init]
  have empty : ((samples.take (samples.length / 2 ^ 32 * 2 ^ 32)).foldl addSample (init limit)).contents = [] := by
    rw [contents,wrapped,List.take_zero]
  conv_lhs => rw [← List.take_append_drop (samples.length / 2 ^ 32 * 2 ^ 32) samples]
  rw [List.foldl_append,added_contents _ _ (by omega),empty,List.nil_append]

end Adding

/-! ## Merging and printing -/

section Merging
variable {limit : Limit}

private theorem copySamples_endless {other : LimitedSamplesStorage limit} {count : Int} {count2 : Nat}
    (below : count < limit.val) (fuel : Nat) (storage : LimitedSamplesStorage limit) :
    copySamples other count count2 fuel storage = none := by
  induction fuel generalizing storage with
  | zero => rfl
  | succ fuel ih =>
    rw [copySamples,if_pos below]
    split
    · exact Option.bind_eq_none_iff.mpr fun sample _ => ih (storage.store count.toNat sample)
    · rfl

/-- A merge ends if and only if there is no room in the left operand, and copies nothing then. -/
theorem merge_eq_some_iff {storage other merged : LimitedSamplesStorage limit} :
    (∃ fuel, storage.merge other fuel = some merged) ↔
      limit.val ≤ storage.samples.toInt ∧ merged = { storage with samples := storage.samples + other.samples } := by
  constructor
  · rintro ⟨fuel,executed⟩
    obtain ⟨copied,copies,rfl⟩ := Option.map_eq_some_iff.mp executed
    by_cases below : storage.samples.toInt < limit.val
    · rw [copySamples_endless below] at copies
      contradiction
    · cases fuel with
      | zero => contradiction
      | succ fuel =>
        rw [copySamples,if_neg below,Option.some.injEq] at copies
        subst copies
        exact ⟨not_lt.mp below,rfl⟩
  · rintro ⟨reached,rfl⟩
    refine ⟨1,?_⟩
    rw [merge,copySamples,if_neg (not_lt.mpr reached)]
    rfl

private theorem merges_iff (storage other : LimitedSamplesStorage limit) :
    Merges storage other ↔
      limit.val ≤ storage.samples.toInt ∧ limit.val ≤ (storage.samples + other.samples).toNat := by
  have full := storage.full
  have signed : limit.val ≤ storage.samples.toInt → limit.val ≤ storage.samples.toNat := by
    intro reached
    rw [BitVec.toInt_eq_toNat_cond] at reached
    split at reached <;> omega
  have expected (reached : limit.val ≤ storage.samples.toInt) :
      (storage.contents ++ other.contents).take limit.val = storage.storedSamples := by
    have room := signed reached
    have all : storage.contents = storage.storedSamples := List.take_of_length_le (by omega)
    rw [all,← full,List.take_left]
  constructor
  · rintro ⟨fuel,merged,executed,keeps⟩
    obtain ⟨reached,rfl⟩ := merge_eq_some_iff.mp ⟨fuel,executed⟩
    rw [expected reached] at keeps
    have lengths := congrArg List.length keeps
    simp only [contents,List.length_take] at lengths
    exact ⟨reached,by omega⟩
  · rintro ⟨reached,counted⟩
    obtain ⟨fuel,executed⟩ := merge_eq_some_iff.mpr ⟨reached,rfl⟩
    refine ⟨fuel,_,executed,?_⟩
    rw [expected reached,contents,List.take_of_length_le]
    exact full.trans_le counted

private theorem range_mapM_get (stored : List Int64) (count : Nat) :
    ((List.range count).mapM fun i => stored[i]?) = if count ≤ stored.length then some (stored.take count) else none := by
  induction count with
  | zero => rfl
  | succ count ih =>
    rw [List.range_succ,List.mapM_append,ih]
    by_cases inside : count < stored.length
    · rw [if_pos inside.le,if_pos (Nat.succ_le_of_lt inside),List.take_add_one]
      simp [List.getElem?_eq_getElem inside]
    · rw [if_neg (show ¬ count + 1 ≤ stored.length by omega)]
      split <;> simp [List.getElem?_eq_none (not_lt.mp inside)]

private theorem printsStored_iff (storage : LimitedSamplesStorage limit) :
    PrintsStored storage ↔ storage.samples.toNat ≤ limit.val := by
  rw [PrintsStored,printSamples,range_mapM_get,storage.full]
  by_cases inside : storage.samples.toNat ≤ limit.val
  · simp [inside,contents]
  · simp [inside]

end Merging

/-- The samples from the last multiple of 2 ^ 32 on begin as the whole sequence does; the left operand's count, as an
    `int`, and the `unsigned` sum of the counts reach the limit; and no more samples than the limit are counted. -/
theorem limited_samples_iff (limit : Limit) (samples : List Int64) (storage other : LimitedSamplesStorage limit) :
    (KeepsFirst limit samples ↔
        (samples.drop (samples.length / 2 ^ 32 * 2 ^ 32)).take limit.val = samples.take limit.val) ∧
      (Merges storage other ↔
        limit.val ≤ storage.samples.toInt ∧ limit.val ≤ (storage.samples + other.samples).toNat) ∧
      (PrintsStored storage ↔ storage.samples.toNat ≤ limit.val) := by
  refine ⟨?_,merges_iff storage other,printsStored_iff storage⟩
  rw [KeepsFirst,contents_added]

/-- Two new storages are never merged, and printing two samples reads behind the only one stored. -/
theorem new_storages_never_merged :
    ¬ Merges (init ⟨1,by decide⟩) (init ⟨1,by decide⟩) ∧
      (([3,4] : List Int64).foldl addSample (init ⟨1,by decide⟩)).printSamples = none := by
  refine ⟨?_,by decide⟩
  rw [merges_iff]
  decide

end Vexjine.SampleStorages
