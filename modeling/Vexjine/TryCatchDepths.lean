import Vexjine.MethodReports

/-!
# The depth of a throw

Without a handler of its own, the instrumented method reports its exit ahead of
the throws that the adapter finds outside of all ranges of the exception table. It
counts the labels that begin and end ranges. Where different ranges share no label
the count is that of the ranges around the place, so the exit is reported exactly
when the run returns or is ended by a throw that no range covers.
-/

namespace Vexjine.MethodReports
open Vexjine.InstructionLists Vexjine.BasicBlockAdapter Vexjine.MethodEvents
open BasicBlockMethodAdapter (notifier)

variable {Label Other Out State Exc Result : Type}

/-! ## The visits in order -/

def labelOf : Visit Label (Insn Label Other) → List Label
  | .label name => [name]
  | _ => []

/-- The labels in the order they are visited. -/
def labelsOf (visits : List (Visit Label (Insn Label Other))) : List Label := visits.flatMap labelOf

/-- The exception table as it is visited. -/
def tableOf (visits : List (Visit Label (Insn Label Other))) : List (Handler Label String) :=
  visits.flatMap Visit.handler

/-- The exception table is visited first, its ranges begin before they end, and no label is visited twice.
    Different ranges share no label. -/
structure WellFormed (table body : List (Visit Label (Insn Label Other))) : Prop where
  first : labelsOf table = [] ∧ (∀ piece ∈ table, ∃ start stop handler type, piece = .tryCatchBlock start stop handler type)
  later : ∀ piece ∈ body, ∀ start stop handler type, piece ≠ .tryCatchBlock start stop handler type
  once : (labelsOf body).Nodup
  ranges : ∀ handler ∈ tableOf table, ∃ before between after,
    labelsOf body = before ++ handler.start :: between ++ handler.stop :: after
  apart : ∀ handler ∈ tableOf table, ∀ other ∈ tableOf table,
    (handler.start = other.start ↔ handler.stop = other.stop) ∧ handler.start ≠ other.stop

section Visits
variable [DecidableEq Label] (adapter : BasicBlockMethodAdapter)

/-- The progress after some visits. -/
def afterVisits (progress : Progress Label) (visits : List (Visit Label (Insn Label Other))) : Progress Label :=
  visits.foldl (fun progress piece => (adapter.visit progress piece).1) progress

theorem bodyChunks_append (progress : Progress Label) (before after : List (Visit Label (Insn Label Other))) :
    adapter.bodyChunks progress (before ++ after) =
      adapter.bodyChunks progress before ++ adapter.bodyChunks (afterVisits adapter progress before) after := by
  induction before generalizing progress with
  | nil => rfl
  | cons piece rest ih =>
    rw [List.cons_append,BasicBlockMethodAdapter.bodyChunks,ih,BasicBlockMethodAdapter.bodyChunks,List.append_assoc]
    rfl

/-- A chunk belongs to a visit. -/
theorem split_bodyChunks {progress : Progress Label} {visits : List (Visit Label (Insn Label Other))}
    {before after : List (Chunk (NewLabel Label) (Written Label Other))}
    {chunk : Chunk (NewLabel Label) (Written Label Other)}
    (split : adapter.bodyChunks progress visits = before ++ chunk :: after) :
    ∃ ahead piece behind before' after', visits = ahead ++ piece :: behind ∧
      adapter.chunksOf (afterVisits adapter progress ahead) piece = before' ++ chunk :: after' ∧
      before = adapter.bodyChunks progress ahead ++ before' ∧
      after = after' ++ adapter.bodyChunks (afterVisits adapter progress (ahead ++ [piece])) behind := by
  induction visits generalizing progress before with
  | nil => simp [BasicBlockMethodAdapter.bodyChunks] at split
  | cons piece rest ih =>
    rw [BasicBlockMethodAdapter.bodyChunks] at split
    rcases List.append_eq_append_iff.mp split with ⟨middle,rfl,later⟩ | ⟨middle,here,same⟩
    · obtain ⟨ahead,piece',behind,before',after',rfl,own,rfl,rfl⟩ := ih later
      exact ⟨piece :: ahead,piece',behind,before',after',rfl,own,by simp [BasicBlockMethodAdapter.bodyChunks],rfl⟩
    · cases middle with
      | nil =>
        rw [List.nil_append] at same
        obtain ⟨ahead,piece',behind,before',after',rfl,own,none,rfl⟩ :=
          ih (same.symm.trans (List.nil_append _).symm)
        obtain ⟨empty,rfl⟩ := List.append_eq_nil_iff.mp none.symm
        refine ⟨piece :: ahead,piece',behind,[],after',rfl,own,?_,rfl⟩
        rw [List.append_nil] at here
        simp [BasicBlockMethodAdapter.bodyChunks,here,empty]
      | cons first middle =>
        rw [List.cons_append,List.cons.injEq] at same
        obtain ⟨rfl,rfl⟩ := same
        exact ⟨[],piece,rest,before,middle,rfl,here,rfl,rfl⟩

/-! ## Labels and depths -/

theorem labels_chunksOf (simple : adapter.Plain) (progress : Progress Label) (piece : Visit Label (Insn Label Other)) :
    labels (flat (adapter.chunksOf progress piece)) = (labelOf piece).map .given := by
  have unlabelled : ∀ pieces : List (Output Label Other),
      (∀ piece ∈ pieces, ∃ op, piece = .insn op) → labels (flat (pieces.flatMap Visit.chunk)) = [] := by
    intro pieces insns
    induction pieces with
    | nil => rfl
    | cons head rest ih =>
      obtain ⟨op,rfl⟩ := insns head (by simp)
      rw [List.flatMap_cons,flat_append,labels_append,ih fun piece member => insns piece (by simp [member])]
      simp [Visit.chunk,flat,Chunk.items]
  cases piece with
  | tryCatchBlock start stop handler type => simp [BasicBlockMethodAdapter.chunksOf,BasicBlockMethodAdapter.visit,
      simple.kept,Visit.chunk,labelOf,flat]
  | label name => simp [BasicBlockMethodAdapter.chunksOf,BasicBlockMethodAdapter.visit,simple.kept,Visit.chunk,labelOf,
      flat,Chunk.items]
  | insn insn =>
    have none : labelOf (.insn insn : Visit Label (Insn Label Other)) = [] := rfl
    rw [none,List.map_nil]
    cases insn with
    | insn opcode =>
      rw [BasicBlockMethodAdapter.chunksOf]
      by_cases ending : adapter.ends progress.tryCatchDepth opcode = true
      · rw [if_pos ending,flat_cons,labels_append]
        cases (adapter.releaseMonitor : List (Written Label Other)) with
        | nil => simp [Chunk.items,flat]
        | cons first rest => simp [Chunk.items,flat]
      · rw [if_neg ending]
        apply unlabelled
        intro piece member
        obtain ⟨op,rfl,-⟩ := visitInsn_passing adapter simple (by simpa using ending) piece member
        exact ⟨op,rfl⟩
    | methodInsn opcode owner name desc =>
      apply unlabelled
      intro piece member
      obtain ⟨op,-,rfl⟩ := List.mem_map.mp member
      exact ⟨op,rfl⟩
    | _ =>
      simp only [BasicBlockMethodAdapter.chunksOf,BasicBlockMethodAdapter.visit,simple.kept]
      exact unlabelled _ (by simp)

theorem labels_bodyChunks (simple : adapter.Plain) (visits : List (Visit Label (Insn Label Other)))
    (progress : Progress Label) :
    labels (flat (adapter.bodyChunks progress visits)) = (labelsOf visits).map .given := by
  induction visits generalizing progress with
  | nil => rfl
  | cons piece rest ih =>
    rw [BasicBlockMethodAdapter.bodyChunks,flat_append,labels_append,ih,labels_chunksOf adapter simple,← List.map_append]
    rfl

/-- What a label adds to the depth. -/
def depthChange (starts stops : List Label) (name : Label) : Int :=
  if name ∈ starts then 1 else if name ∈ stops then -1 else 0

theorem afterVisits_body (simple : adapter.Plain) {visits : List (Visit Label (Insn Label Other))}
    (later : ∀ piece ∈ visits, ∀ start stop handler type, piece ≠ .tryCatchBlock start stop handler type)
    (progress : Progress Label) :
    (afterVisits adapter progress visits).allStartingTryCatchingBlockLabels =
        progress.allStartingTryCatchingBlockLabels ∧
      (afterVisits adapter progress visits).allEndingTryCatchingBlockLabels =
        progress.allEndingTryCatchingBlockLabels ∧
      (afterVisits adapter progress visits).tryCatchDepth = progress.tryCatchDepth +
        ((labelsOf visits).map (depthChange progress.allStartingTryCatchingBlockLabels
          progress.allEndingTryCatchingBlockLabels)).sum := by
  induction visits generalizing progress with
  | nil => simp [afterVisits,labelsOf]
  | cons piece rest ih =>
    have here : (adapter.visit progress piece).1.allStartingTryCatchingBlockLabels =
          progress.allStartingTryCatchingBlockLabels ∧
        (adapter.visit progress piece).1.allEndingTryCatchingBlockLabels = progress.allEndingTryCatchingBlockLabels ∧
        (adapter.visit progress piece).1.tryCatchDepth = progress.tryCatchDepth +
          ((labelOf piece).map (depthChange progress.allStartingTryCatchingBlockLabels
            progress.allEndingTryCatchingBlockLabels)).sum := by
      cases piece with
      | tryCatchBlock start stop handler type => exact absurd rfl (later _ (by simp) start stop handler type)
      | label name =>
        simp only [BasicBlockMethodAdapter.visit,simple.kept,labelOf]
        refine ⟨rfl,rfl,?_⟩
        rw [List.map_singleton,List.sum_singleton,depthChange]
        by_cases begins : name ∈ progress.allStartingTryCatchingBlockLabels
        · simp [begins]
        · by_cases ends : name ∈ progress.allEndingTryCatchingBlockLabels
          · simp [begins,ends,sub_eq_add_neg]
          · simp [begins,ends]
      | insn insn => cases insn <;> simp [BasicBlockMethodAdapter.visit,labelOf]
    obtain ⟨starts,stops,depth⟩ := ih (fun piece member => later piece (by simp [member])) (adapter.visit progress piece).1
    rw [here.1,here.2.1] at depth
    refine ⟨starts.trans here.1,stops.trans here.2.1,?_⟩
    rw [show afterVisits adapter progress (piece :: rest) = afterVisits adapter (adapter.visit progress piece).1 rest
      from rfl,depth,here.2.2,labelsOf,labelsOf,List.flatMap_cons,List.map_append,List.sum_append,add_assoc]

/-- The visits of the table collect its labels. -/
theorem afterVisits_table (simple : adapter.Plain) {table : List (Visit Label (Insn Label Other))}
    (entries : ∀ piece ∈ table, ∃ start stop handler type, piece = .tryCatchBlock start stop handler type)
    (progress : Progress Label) :
    (afterVisits adapter progress table).allStartingTryCatchingBlockLabels =
        progress.allStartingTryCatchingBlockLabels ++ (tableOf table).map (·.start) ∧
      (afterVisits adapter progress table).allEndingTryCatchingBlockLabels =
        progress.allEndingTryCatchingBlockLabels ++ (tableOf table).map (·.stop) ∧
      (afterVisits adapter progress table).tryCatchDepth = progress.tryCatchDepth := by
  induction table generalizing progress with
  | nil => simp [afterVisits,tableOf]
  | cons piece rest ih =>
    obtain ⟨start,stop,handler,type,rfl⟩ := entries piece (by simp)
    obtain ⟨starts,stops,depth⟩ := ih (fun piece member => entries piece (by simp [member]))
      (adapter.visit progress (.tryCatchBlock start stop handler type)).1
    have opened : afterVisits adapter progress (.tryCatchBlock start stop handler type :: rest) =
        afterVisits adapter (adapter.visit progress (.tryCatchBlock start stop handler type)).1 rest := rfl
    rw [opened,starts,stops,depth]
    simp [BasicBlockMethodAdapter.visit,simple.kept,tableOf,Visit.handler]

end Visits

/-! ## The depth as a count -/

section Ranges
variable [DecidableEq Label] {table : List (Handler Label String)}

/-- The ranges as pairs of labels. -/
def rangesOf (table : List (Handler Label String)) : Finset (Label × Label) :=
  (table.map fun handler => (handler.start,handler.stop)).toFinset

theorem mem_rangesOf {range : Label × Label} :
    range ∈ rangesOf table ↔ ∃ handler ∈ table, handler.start = range.1 ∧ handler.stop = range.2 := by
  obtain ⟨start,stop⟩ := range
  simp [rangesOf]

variable (apart : ∀ handler ∈ table, ∀ other ∈ table,
  (handler.start = other.start ↔ handler.stop = other.stop) ∧ handler.start ≠ other.stop)
include apart

theorem card_starts (seen : Finset Label) :
    (seen.filter (· ∈ table.map (·.start))).card = ((rangesOf table).filter (·.1 ∈ seen)).card := by
  have image : seen.filter (· ∈ table.map (·.start)) = ((rangesOf table).filter (·.1 ∈ seen)).image Prod.fst := by
    ext name
    simp only [Finset.mem_filter,List.mem_map,Finset.mem_image,mem_rangesOf]
    constructor
    · rintro ⟨inside,handler,listed,rfl⟩
      exact ⟨(handler.start,handler.stop),⟨⟨handler,listed,rfl,rfl⟩,inside⟩,rfl⟩
    · rintro ⟨range,⟨⟨handler,listed,start,-⟩,inside⟩,rfl⟩
      exact ⟨inside,handler,listed,start⟩
  rw [image,Finset.card_image_of_injOn]
  intro range member range' member' same
  obtain ⟨⟨handler,listed,start,stop⟩,-⟩ : (∃ handler ∈ table, _) ∧ _ := by
    simpa only [Finset.mem_coe,Finset.mem_filter,mem_rangesOf] using member
  obtain ⟨⟨other,listed',start',stop'⟩,-⟩ : (∃ handler ∈ table, _) ∧ _ := by
    simpa only [Finset.mem_coe,Finset.mem_filter,mem_rangesOf] using member'
  have ends := (apart handler listed other listed').1.mp (by rw [start,start',same])
  exact Prod.ext same (by rw [← stop,← stop',ends])

theorem card_stops (seen : Finset Label) :
    (seen.filter (· ∈ table.map (·.stop))).card = ((rangesOf table).filter (·.2 ∈ seen)).card := by
  have image : seen.filter (· ∈ table.map (·.stop)) = ((rangesOf table).filter (·.2 ∈ seen)).image Prod.snd := by
    ext name
    simp only [Finset.mem_filter,List.mem_map,Finset.mem_image,mem_rangesOf]
    constructor
    · rintro ⟨inside,handler,listed,rfl⟩
      exact ⟨(handler.start,handler.stop),⟨⟨handler,listed,rfl,rfl⟩,inside⟩,rfl⟩
    · rintro ⟨range,⟨⟨handler,listed,-,stop⟩,inside⟩,rfl⟩
      exact ⟨inside,handler,listed,stop⟩
  rw [image,Finset.card_image_of_injOn]
  intro range member range' member' same
  obtain ⟨⟨handler,listed,start,stop⟩,-⟩ : (∃ handler ∈ table, _) ∧ _ := by
    simpa only [Finset.mem_coe,Finset.mem_filter,mem_rangesOf] using member
  obtain ⟨⟨other,listed',start',stop'⟩,-⟩ : (∃ handler ∈ table, _) ∧ _ := by
    simpa only [Finset.mem_coe,Finset.mem_filter,mem_rangesOf] using member'
  have begins := (apart handler listed other listed').1.mpr (by rw [stop,stop',same])
  exact Prod.ext (by rw [← start,← start',begins]) same

/-- The depth is the number of ranges that have begun, less those that have ended. -/
theorem depth_count {seen : List Label} (once : seen.Nodup) :
    (seen.map (depthChange (table.map (·.start)) (table.map (·.stop)))).sum =
      ((rangesOf table).filter (·.1 ∈ seen.toFinset)).card - (((rangesOf table).filter (·.2 ∈ seen.toFinset)).card : Int) := by
  have change : ∀ name, depthChange (table.map (·.start)) (table.map (·.stop)) name =
      (if name ∈ table.map (·.start) then 1 else 0) - (if name ∈ table.map (·.stop) then 1 else 0 : Int) := by
    intro name
    unfold depthChange
    by_cases begins : name ∈ table.map (·.start)
    · have never : name ∉ table.map (·.stop) := by
        intro ends
        obtain ⟨handler,listed,rfl⟩ := List.mem_map.mp begins
        obtain ⟨other,listed',same⟩ := List.mem_map.mp ends
        exact (apart handler listed other listed').2 same.symm
      rw [if_pos begins,if_pos begins,if_neg never]
      rfl
    · by_cases ends : name ∈ table.map (·.stop)
      · rw [if_neg begins,if_neg begins,if_pos ends,if_pos ends]
        rfl
      · rw [if_neg begins,if_neg begins,if_neg ends,if_neg ends]
        rfl
  rw [← List.sum_toFinset _ once,Finset.sum_congr rfl fun name _ => change name,Finset.sum_sub_distrib,Finset.sum_boole,
    Finset.sum_boole,card_starts apart,card_stops apart]

/-- The depth is zero where no range is open. -/
theorem depth_zero_iff {seen : List Label} (once : seen.Nodup)
    (begun : ∀ handler ∈ table, handler.stop ∈ seen → handler.start ∈ seen) :
    (seen.map (depthChange (table.map (·.start)) (table.map (·.stop)))).sum = 0 ↔
      ∀ handler ∈ table, handler.start ∈ seen → handler.stop ∈ seen := by
  have inside : (rangesOf table).filter (·.2 ∈ seen.toFinset) ⊆ (rangesOf table).filter (·.1 ∈ seen.toFinset) := by
    intro range member
    simp only [Finset.mem_filter,mem_rangesOf,List.mem_toFinset] at member ⊢
    obtain ⟨⟨handler,listed,start,stop⟩,ended⟩ := member
    exact ⟨⟨handler,listed,start,stop⟩,start ▸ begun handler listed (stop.symm ▸ ended)⟩
  rw [depth_count apart once,sub_eq_zero,Nat.cast_inj]
  constructor
  · intro same handler listed start
    have equal := Finset.eq_of_subset_of_card_le inside same.le
    have member : (handler.start,handler.stop) ∈ (rangesOf table).filter (·.1 ∈ seen.toFinset) := by
      simpa only [Finset.mem_filter,mem_rangesOf,List.mem_toFinset] using ⟨⟨handler,listed,rfl,rfl⟩,start⟩
    rw [← equal,Finset.mem_filter,List.mem_toFinset] at member
    exact member.2
  · intro ended
    congr 1
    apply Finset.Subset.antisymm _ inside
    intro range member
    simp only [Finset.mem_filter,mem_rangesOf,List.mem_toFinset] at member ⊢
    obtain ⟨⟨handler,listed,start,stop⟩,open'⟩ := member
    exact ⟨⟨handler,listed,start,stop⟩,stop ▸ ended handler listed (start.symm ▸ open')⟩

end Ranges

/-! ## The throws -/

section Throws
variable [DecidableEq Label] {adapter : BasicBlockMethodAdapter}

/-- The closing parts are those of the instructions that are taken to end the method. -/
theorem closing_chunk {progress : Progress Label} {piece : Visit Label (Insn Label Other)}
    {added ahead : List (Written Label Other)} {opcode : Nat}
    (member : Chunk.closing added ahead (.source (.insn opcode)) ∈ adapter.chunksOf progress piece) :
    piece = .insn (.insn opcode) ∧ adapter.ends progress.tryCatchDepth opcode = true := by
  have never : ∀ pieces : List (Output Label Other),
      Chunk.closing added ahead (.source (.insn opcode)) ∉ pieces.flatMap Visit.chunk := by
    intro pieces listed
    obtain ⟨piece,-,within⟩ := List.mem_flatMap.mp listed
    cases piece <;> simp [Visit.chunk] at within
  cases piece with
  | tryCatchBlock start stop handler type => exact absurd member (never _)
  | label name => exact absurd member (never _)
  | insn insn =>
    cases insn with
    | insn opcode' =>
      rw [BasicBlockMethodAdapter.chunksOf] at member
      by_cases ending : adapter.ends progress.tryCatchDepth opcode' = true
      · rw [if_pos ending,List.mem_singleton] at member
        cases member
        exact ⟨rfl,ending⟩
      · rw [if_neg ending] at member
        exact absurd member (never _)
    | _ => exact absurd member (never _)

omit [DecidableEq Label] in
theorem throw_visitInsn (simple : adapter.Plain) {depth : Int} {opcode : Nat}
    (inside : adapter.ends depth opcode = false)
    (member : .insn (.source (.insn ATHROW)) ∈ (adapter.visitInsn depth opcode : List (Output Label Other))) :
    opcode = ATHROW := by
  have stands : ¬(isReturn opcode || (!adapter.instrumentExceptionHandlingCode && opcode == ATHROW && depth == 0)) =
      true := by
    rw [BasicBlockMethodAdapter.ends] at inside
    simp [inside]
  have other : ATHROW ≠ DUP := by decide
  unfold BasicBlockMethodAdapter.visitInsn at member
  rw [simple.kept,if_neg (by decide),if_neg stands] at member
  split at member
  · -- the monitor's instructions
    have point : Visit.insn (.source (.insn ATHROW)) ∉ (adapter.onInteractionPointEncounter.map .insn :
        List (Output Label Other)) := by
      unfold BasicBlockMethodAdapter.onInteractionPointEncounter
      split <;> simp
    simp only [List.mem_append] at member
    rcases member with (copy | calls) | last
    · split at copy
      · simp at copy
      · simp [other] at copy
    · split at calls
      · simp [point,notifier] at calls
      · simp [point,notifier] at calls
    · split at last
      · simp at last
      · simpa [eq_comm] using last
  · simpa [eq_comm] using member

/-- A throw that is not taken to end the method is inside of a range by the count. -/
theorem throw_chunk (simple : adapter.Plain) (unhandled : adapter.instrumentExceptionHandlingCode = false)
    {progress : Progress Label} {piece : Visit Label (Insn Label Other)}
    (member : Chunk.insn (.source (.insn ATHROW)) ∈ adapter.chunksOf progress piece) :
    piece = .insn (.insn ATHROW) ∧ progress.tryCatchDepth ≠ 0 := by
  have within : ∀ pieces : List (Output Label Other),
      Chunk.insn (.source (.insn ATHROW)) ∈ pieces.flatMap Visit.chunk →
        Visit.insn (.source (.insn ATHROW)) ∈ pieces := by
    intro pieces listed
    obtain ⟨piece,inside,same⟩ := List.mem_flatMap.mp listed
    cases piece with
    | insn op =>
      simp only [Visit.chunk,List.mem_singleton,Chunk.insn.injEq] at same
      exact same ▸ inside
    | label name => simp [Visit.chunk] at same
    | tryCatchBlock start stop handler type => simp [Visit.chunk] at same
  have given : ∀ insn : Insn Label Other, (∀ opcode, insn ≠ .insn opcode) →
      .insn (.source (.insn ATHROW)) ∉ ([.insn (.source insn.given)] : List (Output Label Other)).flatMap Visit.chunk := by
    intro insn passes listed
    have same := List.mem_singleton.mp (within _ listed)
    cases insn <;> simp [Insn.given] at same passes
  cases piece with
  | tryCatchBlock start stop handler type => simp [BasicBlockMethodAdapter.chunksOf,BasicBlockMethodAdapter.visit,
      simple.kept,Visit.chunk] at member
  | label name => simp [BasicBlockMethodAdapter.chunksOf,BasicBlockMethodAdapter.visit,simple.kept,Visit.chunk] at member
  | insn insn =>
    cases insn with
    | insn opcode =>
      rw [BasicBlockMethodAdapter.chunksOf] at member
      by_cases ending : adapter.ends progress.tryCatchDepth opcode = true
      · rw [if_pos ending] at member
        simp at member
      · rw [if_neg ending] at member
        have same := throw_visitInsn simple (by simpa using ending) (within _ member)
        subst same
        refine ⟨rfl,?_⟩
        intro zero
        apply ending
        simp [BasicBlockMethodAdapter.ends,unhandled,zero]
    | methodInsn opcode owner name desc =>
      obtain ⟨op,listed,same⟩ := List.mem_map.mp (within _ member)
      cases same
      obtain ⟨insn,same,-,others⟩ := visitMethodInsn_calling adapter _ _ _ _ _ _ listed
      cases same
      exact absurd rfl (others ATHROW)
    | _ =>
      simp only [BasicBlockMethodAdapter.chunksOf,BasicBlockMethodAdapter.visit,simple.kept] at member
      exact absurd member (given _ (by simp))

/-- A part without labels. -/
def Unlabelled : Chunk (NewLabel Label) (Written Label Other) → Prop
  | .label _ => False
  | _ => True

omit [DecidableEq Label] in
theorem labels_unlabelled {chunk : Chunk (NewLabel Label) (Written Label Other)} (unlabelled : Unlabelled chunk) :
    labels chunk.items = [] := by
  cases chunk with
  | label name => cases unlabelled
  | insn op => simp [Chunk.items]
  | closing added ahead last => cases ahead <;> simp [Chunk.items]

omit [DecidableEq Label] in
theorem unlabelled_insn (op : Written Label Other) : Unlabelled (.insn op) := trivial

omit [DecidableEq Label] in
theorem unlabelled_closing (added ahead : List (Written Label Other)) (last : Written Label Other) :
    Unlabelled (.closing added ahead last) := trivial

/-- The visit of such a part has no label. -/
theorem labelOf_unlabelled (simple : adapter.Plain) {progress : Progress Label} {piece : Visit Label (Insn Label Other)}
    {chunk : Chunk (NewLabel Label) (Written Label Other)} (unlabelled : Unlabelled chunk)
    (member : chunk ∈ adapter.chunksOf progress piece) : labelOf piece = [] := by
  cases piece with
  | label name =>
    simp only [BasicBlockMethodAdapter.chunksOf,BasicBlockMethodAdapter.visit,simple.kept] at member
    have same : chunk = .label (.given name) := by simpa [Visit.chunk] using member
    subst same
    cases unlabelled
  | _ => rfl

/-- The count at an instruction is zero exactly where no range covers it. -/
theorem depth_at_place (simple : adapter.Plain) {table body : List (Visit Label (Insn Label Other))}
    (wf : WellFormed table body) {point : Int} {before after : List (Chunk (NewLabel Label) (Written Label Other))}
    {chunk : Chunk (NewLabel Label) (Written Label Other)} (unlabelled : Unlabelled chunk)
    (split : adapter.bodyChunks { invocationPointId := point } (table ++ body) = before ++ chunk :: after) :
    ∃ progress piece, chunk ∈ adapter.chunksOf progress piece ∧
      (progress.tryCatchDepth = 0 ↔
        ∀ handler ∈ (adapter.unreported { invocationPointId := point } (table ++ body)).handlers,
          handler.covers (flat before) (flat after) = false) := by
  have empty : ∀ progress, adapter.bodyChunks progress table = [] := by
    have entries := wf.first.2
    clear wf split
    induction table with
    | nil => exact fun _ => rfl
    | cons piece rest ih =>
      intro progress
      obtain ⟨start,stop,handler,type,rfl⟩ := entries piece (by simp)
      rw [BasicBlockMethodAdapter.bodyChunks,ih fun piece member => entries piece (by simp [member])]
      simp [BasicBlockMethodAdapter.chunksOf,BasicBlockMethodAdapter.visit,simple.kept,Visit.chunk]
  obtain ⟨starts,stops,depth⟩ := afterVisits_table adapter simple wf.first.2 { invocationPointId := point }
  rw [bodyChunks_append,empty,List.nil_append] at split
  obtain ⟨ahead,piece,behind,before',after',rfl,own,rfl,rfl⟩ := split_bodyChunks adapter split
  have member : chunk ∈ adapter.chunksOf (afterVisits adapter (afterVisits adapter { invocationPointId := point } table)
      ahead) piece := by simp [own]
  have none := labelOf_unlabelled simple unlabelled member
  refine ⟨_,piece,member,?_⟩
  -- the labels on both sides
  have inner : labels (flat before') = [] ∧ labels (flat after') = [] := by
    have all := labels_chunksOf adapter simple
      (afterVisits adapter (afterVisits adapter { invocationPointId := point } table) ahead) piece
    rw [own,none,flat_append,labels_append,flat_cons,labels_append] at all
    simpa [labels_unlabelled unlabelled] using all
  have visited : labelsOf (ahead ++ piece :: behind) = labelsOf ahead ++ labelsOf behind := by
    simp [labelsOf,none]
  have once := wf.once
  rw [visited] at once
  have inside : ∀ other ∈ ahead, ∀ start stop handler type, other ≠ .tryCatchBlock start stop handler type :=
    fun other listed => wf.later other (by simp [listed])
  obtain ⟨-,-,counted⟩ := afterVisits_body adapter simple inside (afterVisits adapter { invocationPointId := point } table)
  rw [counted,starts,stops,depth]
  have begun : ∀ handler ∈ tableOf table, handler.stop ∈ labelsOf ahead → handler.start ∈ labelsOf ahead := by
    intro handler listed ended
    obtain ⟨first,between,last,order⟩ := wf.ranges handler listed
    have sub : [handler.start,handler.stop].Sublist (labelsOf ahead ++ labelsOf behind) := by
      have pair := (List.nil_sublist first).append (((List.nil_sublist between).append
        ((List.nil_sublist last).cons_cons handler.stop)).cons_cons handler.start)
      rw [← visited,order,List.append_assoc,List.cons_append]
      exact pair
    obtain ⟨left,right,same,inside,outside⟩ := List.sublist_append_iff.mp sub
    cases left with
    | nil =>
      rw [List.nil_append] at same
      have later : handler.stop ∈ labelsOf behind := outside.subset (by simp [← same])
      exact absurd later (List.disjoint_of_nodup_append once ended)
    | cons head left =>
      rw [List.cons_append,List.cons.injEq] at same
      exact inside.subset (by simp [same.1])
  have zero := depth_zero_iff wf.apart once.of_append_left begun
  rw [show (0 : Int) + ((labelsOf ahead).map (depthChange ([] ++ (tableOf table).map (·.start))
    ([] ++ (tableOf table).map (·.stop)))).sum = ((labelsOf ahead).map (depthChange ((tableOf table).map (·.start))
    ((tableOf table).map (·.stop)))).sum from by simp,zero]
  have rest : tableOf (ahead ++ piece :: behind) = [] := by
    rw [tableOf,List.flatMap_eq_nil_iff]
    intro other listed
    cases other with
    | tryCatchBlock start stop handler type => exact absurd rfl (wf.later _ listed start stop handler type)
    | label name => rfl
    | insn insn => rfl
  have handlers : (adapter.unreported { invocationPointId := point } (table ++ (ahead ++ piece :: behind))).handlers =
      (tableOf table).map fun handler =>
        { start := .given handler.start,stop := .given handler.stop,target := .given handler.target
          kind := handler.kind } := by
    rw [BasicBlockMethodAdapter.unreported,handlers_given adapter simple,List.flatMap_append]
    simp only [tableOf] at rest ⊢
    rw [rest,List.append_nil]
  rw [handlers,List.forall_mem_map]
  refine forall₂_congr ?_
  intro handler listed
  have covers : Handler.covers
        ({ start := .given handler.start,stop := .given handler.stop,target := .given handler.target
           kind := handler.kind } : Handler (NewLabel Label) String)
        (flat (adapter.bodyChunks (afterVisits adapter { invocationPointId := point } table) ahead ++ before'))
        (flat (after' ++ adapter.bodyChunks (afterVisits adapter (afterVisits adapter { invocationPointId := point } table)
          (ahead ++ [piece])) behind)) =
      decide (handler.start ∈ labelsOf ahead ∧ handler.stop ∈ labelsOf behind) := by
    unfold Handler.covers
    congr 1
    simp only [flat_append,labels_append,inner.1,inner.2,labels_bodyChunks adapter simple,List.append_nil,
      List.nil_append,List.mem_map,NewLabel.given.injEq,exists_eq_right]
  rw [covers,decide_eq_false_iff_not,not_and]
  refine imp_congr_right ?_
  intro start
  constructor
  · intro inside outside
    exact List.disjoint_of_nodup_append once inside outside
  · intro outside
    have somewhere : handler.stop ∈ labelsOf (ahead ++ piece :: behind) := by
      obtain ⟨first,between,last,order⟩ := wf.ranges handler listed
      simp [order]
    rw [visited] at somewhere
    exact (List.mem_append.mp somewhere).resolve_right outside

/-- The instruction leaves the method: it returns, or is a throw that no range covers. -/
def Leaves (handlers : List (Handler (NewLabel Label) String)) (place : List (Item (NewLabel Label) (Written Label Other)))
    (op : Written Label Other) (rest : List (Item (NewLabel Label) (Written Label Other))) : Prop :=
  (∃ opcode, isReturn opcode = true ∧ op = .source (.insn opcode)) ∨
    op = .source (.insn ATHROW) ∧ ∀ handler ∈ handlers, handler.covers place rest = false

variable {M : Jvm Label Other Out State Exc Result}

/-- Without the handler, every run that ends reports its entry first and then is one of the method without reports.
    The exit is reported if the last instruction returns or is a throw that no range covers, and not if it is
    any other, such as a call that an exception leaves. -/
theorem exit_of_leaving (lawful : Lawful M) (profiled : Profiled adapter)
    (unhandled : adapter.instrumentExceptionHandlingCode = false) {table body : List (Visit Label (Insn Label Other))}
    (wf : WellFormed table body) {point : Int}
    (closed : M.Closed (adapter.reported { invocationPointId := point } (table ++ body))) {state : State}
    {occurrences : List (Occurrence Out)} {ending : Ending Exc Result}
    (steps : M.Steps (codeOf (adapter.instrument { invocationPointId := point } (table ++ body)))
      ((codeOf (adapter.instrument { invocationPointId := point } (table ++ body))).start state) occurrences
      (.ended ending)) :
    ∃ entry exits first last place op rest state',
      reportsOf occurrences = .entry adapter.methodId entry :: (reportsOf (first ++ last) ++ exits) ∧
      occurrences.filter Occurrence.isOutput = (first ++ last).filter Occurrence.isOutput ∧
      M.Steps (adapter.unreported { invocationPointId := point } (table ++ body))
        ((adapter.unreported { invocationPointId := point } (table ++ body)).start state) first
        (.running place (.insn [] op :: rest) state') ∧
      M.Step (adapter.unreported { invocationPointId := point } (table ++ body))
        (.running place (.insn [] op :: rest) state') last (.ended ending) ∧
      (Leaves (adapter.unreported { invocationPointId := point } (table ++ body)).handlers place op rest →
        ∃ exit, exits = [.exit adapter.methodId exit]) ∧
      (¬Leaves (adapter.unreported { invocationPointId := point } (table ++ body)).handlers place op rest →
        exits = []) := by
  have simple := profiled.toPlain
  have parts := bodyChunks_parts adapter simple (table ++ body) { invocationPointId := point }
  have uncaught : ∀ before added ahead after,
      adapter.bodyChunks { invocationPointId := point } (table ++ body) =
        before ++ .closing added ahead (.source (.insn ATHROW)) :: after → ∀ exc, M.handlerOf
          (adapter.unreported { invocationPointId := point } (table ++ body)).handlers (flat before) (flat after) exc =
            none := by
    intro before added ahead after split exc
    obtain ⟨progress,piece,member,depth⟩ := depth_at_place simple wf (unlabelled_closing _ _ _) split
    obtain ⟨rfl,ends⟩ := closing_chunk member
    have zero : progress.tryCatchDepth = 0 := by
      simpa [BasicBlockMethodAdapter.ends,not_return_athrow,unhandled] using ends
    unfold Machine.handlerOf
    rw [Option.map_eq_none_iff,List.find?_eq_none]
    intro handler listed
    simp [depth.mp zero handler listed]
  obtain ⟨entry,early,own,late,last,first,more,place,op,rest,state',rfl,quiet,total,ends,inside,final,closes⟩ :=
    reported_run lawful profiled closed uncaught steps
  have unguarded : adapter.frame.guard = (none : Option (Guard (NewLabel Label) (Written Label Other))) := by
    unfold BasicBlockMethodAdapter.frame
    simp [unhandled]
  have nothing : last = [] := by
    cases ending with
    | returned result => exact closes
    | raised exc =>
      rw [Frame.Closes,unguarded] at closes
      exact closes
  subst nothing
  -- the labels behind the last instruction
  have behind_labels : ∀ {before chunk after}, Unlabelled chunk →
      adapter.bodyChunks { invocationPointId := point } (table ++ body) = before ++ chunk :: after →
      labels place = labels (flat before) → labels rest = labels (flat after) := by
    intro before chunk after unlabelled split behind
    have whole : place ++ .insn [] op :: rest = (flat (before ++ chunk :: after)).map Item.bare := by
      rw [← split]
      exact inside.within
    have same := congrArg labels whole
    simp only [labels_append,labels_insn,labels_bare,flat_append,flat_cons,labels_unlabelled unlabelled,
      List.nil_append,behind] at same
    exact List.append_cancel_left same
  have covers : ∀ {before after : List (Chunk (NewLabel Label) (Written Label Other))},
      labels place = labels (flat before) → labels rest = labels (flat after) → ∀ handler : Handler (NewLabel Label) String,
        handler.covers place rest = handler.covers (flat before) (flat after) := by
    intro before after ahead behind handler
    simp only [Handler.covers,ahead,behind]
  have reports : ∀ exits, reportsOf own = exits →
      reportsOf (.report (.entry adapter.methodId entry) :: (early ++ own ++ late ++ [])) =
        .entry adapter.methodId entry :: (reportsOf (first ++ more) ++ exits) := by
    rintro exits rfl
    rw [← total]
    simp only [reportsOf,List.filterMap_cons,Occurrence.report?,List.filterMap_append,List.append_nil] at quiet ⊢
    simp [quiet]
  have outputs : own.filter Occurrence.isOutput = [] →
      (Occurrence.report (.entry adapter.methodId entry) :: (early ++ own ++ late ++ [])).filter Occurrence.isOutput =
        (first ++ more).filter Occurrence.isOutput := by
    intro hidden
    rw [← total]
    simp [Occurrence.isOutput,hidden]
  cases ends with
  | @closed before added ahead op after own late state'' ending split behind emits later =>
    obtain ⟨rfl,-,opcode,rfl,leaving⟩ := parts (.closing added ahead op) (by simp [split])
    unfold BasicBlockMethodAdapter.exits at emits
    rw [if_pos profiled.profile] at emits
    obtain ⟨exit,rfl⟩ := emits_exit lawful profiled emits
    refine ⟨entry,_,first,more,place,_,rest,state',reports _ rfl,outputs rfl,inside,final,fun _ => ⟨exit,rfl⟩,?_⟩
    intro stays
    refine absurd ?_ stays
    rcases leaving with returns | ⟨-,rfl⟩
    · exact .inl ⟨opcode,returns,rfl⟩
    · refine .inr ⟨rfl,?_⟩
      intro handler listed
      obtain ⟨progress,piece,member,depth⟩ := depth_at_place simple wf (unlabelled_closing _ _ _) split
      obtain ⟨rfl,ends⟩ := closing_chunk member
      have zero : progress.tryCatchDepth = 0 := by
        simpa [BasicBlockMethodAdapter.ends,not_return_athrow,unhandled] using ends
      rw [covers behind (behind_labels (unlabelled_closing _ _ _) split behind)]
      exact depth.mp zero handler listed
  | @raised before op after exc split behind =>
    refine ⟨entry,[],first,more,place,op,rest,state',reports _ rfl,outputs rfl,inside,final,?_,fun _ => rfl⟩
    rintro (⟨opcode,returns,rfl⟩ | ⟨rfl,open'⟩)
    · obtain ⟨insn,same,-,passes⟩ := parts (.insn (.source (.insn opcode))) (by simp [split])
      cases same
      rw [passes opcode rfl] at returns
      cases returns
    · obtain ⟨progress,piece,member,depth⟩ := depth_at_place simple wf (unlabelled_insn _) split
      refine absurd (depth.mpr ?_) (throw_chunk simple unhandled member).2
      intro handler listed
      rw [← covers behind (behind_labels (unlabelled_insn _) split behind)]
      exact open' handler listed

end Throws

/-- A profiled method that declares no exceptions. -/
def deposit : BasicBlockMethodAdapter :=
  (BasicBlockMethodAdapter.new 111 true 0 "Account" "deposit" "(I)V" [] {} none).1

/-- A range of one instruction, and a throw behind it. -/
def depositTable : List (Visit ℕ (Insn ℕ Empty)) := [.tryCatchBlock 0 1 1 none]

def depositBody : List (Visit ℕ (Insn ℕ Empty)) := [.label 0,.insn (.insn DUP),.label 1,.insn (.insn ATHROW)]

theorem deposit_wellFormed : WellFormed depositTable depositBody where
  first := ⟨rfl,by simp [depositTable]⟩
  later := by simp [depositBody]
  once := by decide
  ranges := by
    intro handler member
    cases List.mem_singleton.mp member
    exact ⟨[],[],[],rfl⟩
  apart := by
    intro handler member other member'
    cases List.mem_singleton.mp member
    cases List.mem_singleton.mp member'
    decide

theorem exit_of_leaving_deposit :
    ∃ entry exits first last place op rest state',
      reportsOf ([.report (.entry 111 5),.report (.exit 111 8)] : List (Occurrence Unit)) =
        .entry 111 entry :: (reportsOf (first ++ last) ++ exits) ∧
      ([.report (.entry 111 5),.report (.exit 111 8)] : List (Occurrence Unit)).filter Occurrence.isOutput =
        (first ++ last).filter Occurrence.isOutput ∧
      idleJvm.Steps (deposit.unreported {} (depositTable ++ depositBody))
        ((deposit.unreported {} (depositTable ++ depositBody)).start ()) first
        (.running place (.insn [] op :: rest) state') ∧
      idleJvm.Step (deposit.unreported {} (depositTable ++ depositBody))
        (.running place (.insn [] op :: rest) state') last (.ended (.raised ())) ∧
      (Leaves (deposit.unreported {} (depositTable ++ depositBody)).handlers place op rest →
        ∃ exit, exits = [.exit 111 exit]) ∧
      (¬Leaves (deposit.unreported {} (depositTable ++ depositBody)).handlers place op rest → exits = []) := by
  have closed : idleJvm.Closed (deposit.reported {} (depositTable ++ depositBody)) := by
    have last : (deposit.reported {} (depositTable ++ depositBody)).items =
        [.label (.given 0),.insn [] (.source (.insn DUP)),.label (.given 1)] ++
          [.insn [.methodInstrument 111 "_beforeMethodExit"] (.source (.insn ATHROW))] := rfl
    refine Machine.closed_of_last last ?_
    rintro state occurrences later ⟨-,ends⟩
    cases ends
  have written : codeOf (deposit.instrument {} (depositTable ++ depositBody)) =
      { items := [.insn [] (.methodInstrument 111 "_afterMethodEntry"),.label (.given 0),
          .insn [] (.source (.insn DUP)),.label (.given 1),.insn [] (.methodInstrument 111 "_beforeMethodExit"),
          .insn [] (.source (.insn ATHROW))]
        handlers := [{ start := .given 0,stop := .given 1,target := .given 1,kind := none }] } := rfl
  have dup : idleJvm.effect (.source (.insn DUP)) () [] (.next ()) := ⟨rfl,rfl⟩
  have steps : idleJvm.Steps (codeOf (deposit.instrument {} (depositTable ++ depositBody)))
      ((codeOf (deposit.instrument {} (depositTable ++ depositBody))).start ())
      [.report (.entry 111 5),.report (.exit 111 8)] (.ended (.raised ())) := by
    rw [written]
    refine .head (.next (Machine.emits_none _) (idleJvm_entry 111 5 ())) (.head (.label _) ?_)
    refine .head (.next (Machine.emits_none _) dup) (.head (.label _) ?_)
    refine .head (.next (Machine.emits_none _) (idleJvm_exit 111 8 ())) ?_
    exact .single (.raised (Machine.emits_none _) (idleJvm_athrow ()) rfl)
  exact exit_of_leaving idleJvm_lawful ⟨⟨by decide,by decide⟩,by decide,by decide,by decide⟩ rfl deposit_wellFormed
    closed steps

/-- Two ranges that begin with the same label. -/
def nestedTable : List (Visit ℕ (Insn ℕ Empty)) := [.tryCatchBlock 0 1 1 none,.tryCatchBlock 0 2 2 none]

def nestedBody : List (Visit ℕ (Insn ℕ Empty)) :=
  [.label 0,.insn (.insn DUP),.label 1,.insn (.insn DUP),.label 2,.insn (.insn ATHROW)]

/-- Ranges must not share labels. The label that begins both counts once and each that ends one counts, so behind both
    ranges the depth is -1, and a throw there leaves the method without a report. -/
theorem nested_exit_unreported :
    Leaves (deposit.unreported {} (nestedTable ++ nestedBody)).handlers
      [.label (.given 0),.insn [] (.source (.insn DUP)),.label (.given 1),.insn [] (.source (.insn DUP)),.label (.given 2)]
      (.source (.insn ATHROW) : Written ℕ Empty) [] ∧
    (deposit.unreported {} (nestedTable ++ nestedBody)).items =
      [.label (.given 0),.insn [] (.source (.insn DUP)),.label (.given 1),.insn [] (.source (.insn DUP)),.label (.given 2),
        .insn [] (.source (.insn ATHROW))] ∧
    idleJvm.Steps (codeOf (deposit.instrument {} (nestedTable ++ nestedBody)))
      ((codeOf (deposit.instrument {} (nestedTable ++ nestedBody))).start ()) [.report (.entry 111 5)]
      (.ended (.raised ())) := by
  have written : codeOf (deposit.instrument {} (nestedTable ++ nestedBody)) =
      { items := [.insn [] (.methodInstrument 111 "_afterMethodEntry"),.label (.given 0),
          .insn [] (.source (.insn DUP)),.label (.given 1),.insn [] (.source (.insn DUP)),.label (.given 2),
          .insn [] (.source (.insn ATHROW))]
        handlers := [{ start := .given 0,stop := .given 1,target := .given 1,kind := none },
          { start := .given 0,stop := .given 2,target := .given 2,kind := none }] } := rfl
  have dup : idleJvm.effect (.source (.insn DUP)) () [] (.next ()) := ⟨rfl,rfl⟩
  refine ⟨.inr ⟨rfl,?_⟩,rfl,?_⟩
  · intro handler member
    have listed : handler ∈ [({ start := .given 0,stop := .given 1,target := .given 1,kind := none } :
        Handler (NewLabel ℕ) String),{ start := .given 0,stop := .given 2,target := .given 2,kind := none }] := member
    rcases List.mem_pair.mp listed with rfl | rfl
    · rfl
    · rfl
  · rw [written]
    refine .head (.next (Machine.emits_none _) (idleJvm_entry 111 5 ())) (.head (.label _) ?_)
    refine .head (.next (Machine.emits_none _) dup) (.head (.label _) ?_)
    refine .head (.next (Machine.emits_none _) dup) (.head (.label _) ?_)
    exact .single (.raised (Machine.emits_none _) (idleJvm_athrow ()) rfl)

end Vexjine.MethodReports
