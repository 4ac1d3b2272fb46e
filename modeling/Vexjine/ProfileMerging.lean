import Vexjine.CallTimes

/-!
# Merging the profiles of finished threads

At the end of a thread its measures are added to those of all threads, method by
method, or node by node of the call trees. The first measure that is found for a
method or a path is kept, and what is added to it leaves out the times of waiting.
-/

namespace Vexjine.ProfileMerging
open Vexjine.MethodLogs Vexjine.MethodEvents Vexjine.CallTimes Vexjine.ParentForests Vexjine.StackTraces

/-! ## Adding a measure to another -/

/-- Of the times, the two that `operator+=` adds. -/
def addTimes (times other : Times) : Times
  | .cpu => times .cpu + other .cpu
  | .estimatedRealTime => times .estimatedRealTime + other .estimatedRealTime
  | clock => times clock

/-- `operator+=`. -/
def addMeasure (measure other : PerformanceMeasure) : PerformanceMeasure :=
  { measure with
    samples := measure.samples + other.samples
    exclusive := addTimes measure.exclusive other.exclusive
    inclusive := addTimes measure.inclusive other.inclusive }

/-- The invocations and times of a measure. -/
def total (measure : PerformanceMeasure) : Total := (measure.samples,measure.exclusive,measure.inclusive)

/-- The times spent waiting for monitors and I/O. -/
def waits (times : Times) : Times
  | .cpu | .estimatedRealTime => 0
  | clock => times clock

/-- What is lost when the measure is added to another. -/
def lostBy (measure : PerformanceMeasure) : Total := (0,waits measure.exclusive,waits measure.inclusive)

theorem addTimes_waits (times other : Times) : addTimes times other + waits other = times + other := by
  funext clock
  cases clock <;> simp [addTimes,waits]

theorem total_addMeasure (measure other : PerformanceMeasure) :
    total (addMeasure measure other) + lostBy other = total measure + total other := by
  unfold total addMeasure lostBy
  simp only [Prod.mk_add_mk,add_zero,addTimes_waits]

/-- The measure that is left of the ones found for a method or a path, in the order in which they are found. -/
def merged : List PerformanceMeasure → Option PerformanceMeasure
  | [] => none
  | first :: later => some (later.foldl addMeasure first)

/-- What a measure holds, if there is one. -/
def totalOfOption (measure : Option PerformanceMeasure) : Total := (measure.map total).getD 0

theorem total_foldl (first : PerformanceMeasure) (later : List PerformanceMeasure) :
    total (later.foldl addMeasure first) + (later.map lostBy).sum = total first + (later.map total).sum := by
  induction later generalizing first with
  | nil => rfl
  | cons measure rest ih =>
    rw [List.foldl_cons,List.map_cons,List.sum_cons,List.map_cons,List.sum_cons,add_left_comm,ih,← add_assoc,
      ← add_assoc,add_comm (lostBy measure),total_addMeasure]

/-- The merged measure falls short of the sum by the waiting times of all but the first. -/
theorem total_merged (found : List PerformanceMeasure) :
    totalOfOption (merged found) + (found.tail.map lostBy).sum = (found.map total).sum := by
  cases found with
  | nil => rfl
  | cons first later => exact total_foldl first later

/-- One measure more. -/
theorem merged_concat (found : List PerformanceMeasure) (measure : PerformanceMeasure) :
    merged (found ++ [measure]) = some (match merged found with
      | none => measure
      | some first => addMeasure first measure) := by
  cases found with
  | nil => rfl
  | cons first later => rw [List.cons_append,merged,List.foldl_append]; rfl

theorem addMeasure_methodId (measure other : PerformanceMeasure) :
    (addMeasure measure other).methodId = measure.methodId := rfl

/-! ## Measures of methods -/

/-- The measure of a method, as `unordered_map::find` gives it. -/
def findMeasure (methodId : Int) (measures : List PerformanceMeasure) : Option PerformanceMeasure :=
  measures.find? (·.methodId = methodId)

/-- A thread's measure is added to that of its method, or becomes it if the method is registered. -/
def mergeMeasure (registeredMethodNames : List Int) (measures : List PerformanceMeasure)
    (measure : PerformanceMeasure) : List PerformanceMeasure :=
  if measures.any (·.methodId = measure.methodId) then
    measures.map fun global => if global.methodId = measure.methodId then addMeasure global measure else global
  else if measure.methodId ∈ registeredMethodNames then measures ++ [measure]
  else measures

def createMeasuresForThread (registeredMethodNames : List Int) (measures threadMeasures : List PerformanceMeasure) :
    List PerformanceMeasure := threadMeasures.foldl (mergeMeasure registeredMethodNames) measures

section Methods
variable {registeredMethodNames : List Int} {measures : List PerformanceMeasure} {measure : PerformanceMeasure}

theorem findMeasure_none_iff {methodId : Int} :
    findMeasure methodId measures = none ↔ ∀ measure ∈ measures, measure.methodId ≠ methodId := by
  unfold findMeasure
  rw [List.find?_eq_none]
  simp

theorem findMeasure_methodId {methodId : Int} (found : findMeasure methodId measures = some measure) :
    measure.methodId = methodId := by
  simpa using List.find?_some found

private theorem findMeasure_map (methodId : Int) (other : PerformanceMeasure) :
    findMeasure methodId (measures.map fun global =>
        if global.methodId = other.methodId then addMeasure global other else global) =
      (findMeasure methodId measures).map fun global =>
        if other.methodId = methodId then addMeasure global other else global := by
  unfold findMeasure
  rw [List.find?_map]
  have same : ((fun measure : PerformanceMeasure => decide (measure.methodId = methodId)) ∘ fun global =>
      if global.methodId = other.methodId then addMeasure global other else global) =
      fun measure => decide (measure.methodId = methodId) := by
    funext global
    simp only [Function.comp_apply]
    split <;> rfl
  rw [same]
  cases found : measures.find? fun measure => decide (measure.methodId = methodId) with
  | none => rfl
  | some global =>
    have own : global.methodId = methodId := findMeasure_methodId found
    simp only [Option.map_some,own,eq_comm]

/-- A measure is added to that of its method or is the first of it, and the other methods keep theirs. -/
theorem findMeasure_mergeMeasure (methodId : Int) (registered : methodId ∈ registeredMethodNames) :
    findMeasure methodId (mergeMeasure registeredMethodNames measures measure) =
      if measure.methodId = methodId then some (match findMeasure methodId measures with
        | none => measure
        | some global => addMeasure global measure)
      else findMeasure methodId measures := by
  unfold mergeMeasure
  split
  · rename_i present
    rw [findMeasure_map]
    by_cases own : measure.methodId = methodId
    · subst own
      cases found : findMeasure measure.methodId measures with
      | none =>
        obtain ⟨global,member,same⟩ := List.any_eq_true.mp present
        exact absurd (of_decide_eq_true same) (findMeasure_none_iff.mp found global member)
      | some global => simp
    · rw [if_neg own]
      simp [own]
  · rename_i absent
    by_cases own : measure.methodId = methodId
    · subst own
      have missing : findMeasure measure.methodId measures = none := by
        rw [findMeasure_none_iff]
        intro global member same
        apply absent
        rw [List.any_eq_true]
        exact ⟨global,member,decide_eq_true same⟩
      rw [if_pos registered,if_pos rfl,missing]
      unfold findMeasure at missing ⊢
      rw [List.find?_append,missing]
      simp
    · rw [if_neg own]
      split
      · unfold findMeasure
        rw [List.find?_append]
        simp [own]
      · rfl

/-- A method that is not registered has no measure. -/
theorem findMeasure_mergeMeasure_unregistered {methodId : Int} (unregistered : methodId ∉ registeredMethodNames)
    (missing : findMeasure methodId measures = none) :
    findMeasure methodId (mergeMeasure registeredMethodNames measures measure) = none := by
  unfold mergeMeasure
  split
  · rw [findMeasure_map,missing]
    rfl
  · split
    · rename_i registered
      rw [findMeasure_none_iff] at missing ⊢
      intro global member
      rcases List.mem_append.mp member with old | new
      · exact missing global old
      · rw [List.mem_singleton.mp new]
        rintro rfl
        exact unregistered registered
    · exact missing

/-- After a thread the measures of a method are one more, if the thread has one for it. -/
theorem findMeasure_createMeasuresForThread {methodId : Int} (registered : methodId ∈ registeredMethodNames)
    {found : List PerformanceMeasure} (first : findMeasure methodId measures = merged found)
    {threadMeasures : List PerformanceMeasure} (apart : (threadMeasures.map (·.methodId)).Nodup) :
    findMeasure methodId (createMeasuresForThread registeredMethodNames measures threadMeasures) =
      merged (found ++ (findMeasure methodId threadMeasures).toList) := by
  induction threadMeasures generalizing measures found with
  | nil => rw [show (findMeasure methodId []).toList = [] from rfl,List.append_nil]; exact first
  | cons measure rest ih =>
    obtain ⟨fresh,apart'⟩ := List.nodup_cons.mp apart
    show findMeasure methodId (createMeasuresForThread registeredMethodNames
      (mergeMeasure registeredMethodNames measures measure) rest) = _
    by_cases own : measure.methodId = methodId
    · -- the thread has no other measure of the method
      have none' : findMeasure methodId rest = none := by
        rw [findMeasure_none_iff]
        intro other member same
        exact fresh (List.mem_map.mpr ⟨other,member,same.trans own.symm⟩)
      have head : findMeasure methodId (measure :: rest) = some measure := by
        unfold findMeasure
        rw [List.find?_cons_of_pos (by simpa using own)]
      have step : findMeasure methodId (mergeMeasure registeredMethodNames measures measure) =
          merged (found ++ [measure]) := by
        rw [findMeasure_mergeMeasure methodId registered,if_pos own,merged_concat,first]
      rw [ih step apart',none',head]
      exact congrArg merged (List.append_nil _)
    · have step : findMeasure methodId (mergeMeasure registeredMethodNames measures measure) = merged found := by
        rw [findMeasure_mergeMeasure methodId registered,if_neg own,first]
      have head : findMeasure methodId (measure :: rest) = findMeasure methodId rest := by
        unfold findMeasure
        rw [List.find?_cons_of_neg (by simpa using own)]
      rw [ih step apart',head]

end Methods

/-- The measures that a thread's samples have left, as they are logged. -/
def profile (samples : List (Int × Sample)) : List PerformanceMeasure :=
  samples.foldl (fun measures sample => addToMeasures sample.1 sample.2 measures) []

/-- The measures of all threads, after each of them has ended in turn. -/
def mergedProfiles (registeredMethodNames : List Int) (threads : List (List (Int × Sample))) :
    List PerformanceMeasure :=
  threads.foldl (fun measures thread => createMeasuresForThread registeredMethodNames measures (profile thread)) []

/-- One measure that all samples of the method are added to. -/
def single (methodId : Int) (samples : List (Int × Sample)) : PerformanceMeasure :=
  (samples.filter (·.1 = methodId)).foldl (fun measure sample => measure.add sample.2) { methodId }

theorem findMeasure_addToMeasures (methodId charged : Int) (sample : Sample) (measures : List PerformanceMeasure) :
    findMeasure methodId (addToMeasures charged sample measures) =
      if charged = methodId then some (((findMeasure methodId measures).getD { methodId }).add sample)
      else findMeasure methodId measures := by
  unfold addToMeasures findMeasure
  split
  · rename_i present
    rw [List.find?_map]
    have same : ((fun measure : PerformanceMeasure => decide (measure.methodId = methodId)) ∘ fun measure =>
        if measure.methodId = charged then measure.add sample else measure) =
        fun measure => decide (measure.methodId = methodId) := by
      funext measure
      simp only [Function.comp_apply]
      split <;> rfl
    rw [same]
    cases found : measures.find? fun measure => decide (measure.methodId = methodId) with
    | none =>
      rw [if_neg]
      · rfl
      · rintro rfl
        obtain ⟨measure,member,own⟩ := List.any_eq_true.mp present
        exact List.find?_eq_none.mp found measure member own
    | some measure =>
      have own : measure.methodId = methodId := findMeasure_methodId found
      simp only [Option.map_some,own,eq_comm,Option.getD_some]
      split <;> rfl
  · rename_i absent
    rw [List.find?_append]
    by_cases own : charged = methodId
    · subst own
      have missing : measures.find? (fun measure => decide (measure.methodId = charged)) = none := by
        rw [List.find?_eq_none]
        intro measure member same
        exact absent (List.any_eq_true.mpr ⟨measure,member,same⟩)
      rw [missing,if_pos rfl]
      simp
    · simp [own]

theorem profile_nodup (samples : List (Int × Sample)) : ((profile samples).map (·.methodId)).Nodup := by
  suffices ∀ measures : List PerformanceMeasure, (measures.map (·.methodId)).Nodup →
      ((samples.foldl (fun measures sample => addToMeasures sample.1 sample.2 measures) measures).map
        (·.methodId)).Nodup from this [] List.nodup_nil
  induction samples with
  | nil => exact fun _ apart => apart
  | cons sample rest ih =>
    intro measures apart
    exact ih _ (addToMeasures_nodup apart sample.1 sample.2)

/-- A thread has a measure for a method exactly if it has a sample of it, and that holds all of them. -/
theorem findMeasure_profile (methodId : Int) (samples : List (Int × Sample)) :
    findMeasure methodId (profile samples) =
      if samples.filter (·.1 = methodId) = [] then none else some (single methodId samples) := by
  suffices ∀ measures : List PerformanceMeasure,
      findMeasure methodId (samples.foldl (fun measures sample => addToMeasures sample.1 sample.2 measures) measures) =
        if samples.filter (·.1 = methodId) = [] then findMeasure methodId measures
        else some ((samples.filter (·.1 = methodId)).foldl (fun measure sample => measure.add sample.2)
          ((findMeasure methodId measures).getD { methodId })) from this []
  induction samples with
  | nil => exact fun _ => rfl
  | cons sample rest ih =>
    intro measures
    rw [List.foldl_cons,ih,findMeasure_addToMeasures]
    by_cases own : sample.1 = methodId
    · rw [List.filter_cons_of_pos (by simpa using own),if_pos own,if_neg (List.cons_ne_nil _ _)]
      split
      · rename_i none'
        rw [none']
        rfl
      · rfl
    · rw [List.filter_cons_of_neg (by simpa using own),if_neg own]

theorem findMeasure_mergedProfiles {registeredMethodNames : List Int} {methodId : Int}
    (registered : methodId ∈ registeredMethodNames) (threads : List (List (Int × Sample))) :
    findMeasure methodId (mergedProfiles registeredMethodNames threads) =
      merged (threads.filterMap fun thread => findMeasure methodId (profile thread)) := by
  suffices ∀ measures found, findMeasure methodId measures = merged found →
      findMeasure methodId (threads.foldl (fun measures thread =>
        createMeasuresForThread registeredMethodNames measures (profile thread)) measures) =
          merged (found ++ threads.filterMap fun thread => findMeasure methodId (profile thread)) from this [] [] rfl
  induction threads with
  | nil =>
    intro measures found first
    rw [List.filterMap_nil,List.append_nil]
    exact first
  | cons thread rest ih =>
    intro measures found first
    have later := findMeasure_createMeasuresForThread registered first (profile_nodup thread)
    rw [List.foldl_cons,ih _ _ later,List.append_assoc]
    congr 2
    rw [List.filterMap_cons]
    cases findMeasure methodId (profile thread) <;> rfl

theorem findMeasure_mergedProfiles_unregistered {registeredMethodNames : List Int} {methodId : Int}
    (unregistered : methodId ∉ registeredMethodNames) (threads : List (List (Int × Sample))) :
    findMeasure methodId (mergedProfiles registeredMethodNames threads) = none := by
  have thread : ∀ (threadMeasures measures : List PerformanceMeasure), findMeasure methodId measures = none →
      findMeasure methodId (createMeasuresForThread registeredMethodNames measures threadMeasures) = none := by
    intro threadMeasures
    induction threadMeasures with
    | nil => exact fun _ missing => missing
    | cons measure rest ih =>
      intro measures missing
      exact ih _ (findMeasure_mergeMeasure_unregistered unregistered missing)
  suffices ∀ measures, findMeasure methodId measures = none →
      findMeasure methodId (threads.foldl (fun measures thread =>
        createMeasuresForThread registeredMethodNames measures (profile thread)) measures) = none from this [] rfl
  induction threads with
  | nil => exact fun _ missing => missing
  | cons first rest ih =>
    intro measures missing
    exact ih _ (thread _ _ missing)

/-- What a sample adds to the total of its measure. -/
def sampleTotal (sample : Sample) : Total := (1,sample.exclusive,sample.inclusive)

theorem total_single (methodId : Int) (samples : List (Int × Sample)) :
    total (single methodId samples) = ((samples.filter (·.1 = methodId)).map fun sample => sampleTotal sample.2).sum := by
  unfold single
  suffices ∀ measure, total ((samples.filter (·.1 = methodId)).foldl (fun measure sample => measure.add sample.2) measure) =
      total measure + ((samples.filter (·.1 = methodId)).map fun sample => sampleTotal sample.2).sum from
    (this { methodId }).trans (zero_add _)
  induction samples.filter (·.1 = methodId) with
  | nil => exact fun measure => (add_zero _).symm
  | cons sample rest ih =>
    intro measure
    rw [List.foldl_cons,ih,List.map_cons,List.sum_cons,← add_assoc]
    rfl

/-- The measures that the threads have for the method. -/
def foundMeasures (methodId : Int) (threads : List (List (Int × Sample))) : List PerformanceMeasure :=
  threads.filterMap fun thread => findMeasure methodId (profile thread)

theorem total_single_flatten (methodId : Int) (threads : List (List (Int × Sample))) :
    total (single methodId threads.flatten) = ((foundMeasures methodId threads).map total).sum := by
  induction threads with
  | nil => rfl
  | cons thread rest ih =>
    rw [List.flatten_cons,total_single,List.filter_append,List.map_append,List.sum_append,← total_single,
      ← total_single,ih]
    show total (single methodId thread) + _ =
      ((List.filterMap (fun thread => findMeasure methodId (profile thread)) (thread :: rest)).map total).sum
    rw [List.filterMap_cons,findMeasure_profile]
    by_cases none' : thread.filter (·.1 = methodId) = []
    · rw [if_pos none',total_single,none']
      exact zero_add _
    · rw [if_neg none']
      rfl

/-- A measure that a thread has for a method has a sample. -/
theorem samples_pos {methodId : Int} {threads : List (List (Int × Sample))} {measure : PerformanceMeasure}
    (found : measure ∈ foundMeasures methodId threads) : 0 < measure.samples := by
  obtain ⟨thread,-,has⟩ := List.mem_filterMap.mp found
  rw [findMeasure_profile] at has
  split at has
  · cases has
  · rename_i some'
    cases has
    have counted := congrArg Prod.fst (total_single methodId thread)
    cases sampled : thread.filter (·.1 = methodId) with
    | nil => exact absurd sampled some'
    | cons sample rest =>
      rw [sampled,List.map_cons,List.sum_cons] at counted
      show 0 < (total (single methodId thread)).1
      rw [counted]
      exact Nat.lt_of_lt_of_le Nat.one_pos (Nat.le_add_right _ _)

theorem foundMeasures_nil_iff {methodId : Int} {threads : List (List (Int × Sample))} :
    foundMeasures methodId threads = [] ↔ ∀ thread ∈ threads, ∀ sample ∈ thread, sample.1 ≠ methodId := by
  unfold foundMeasures
  rw [List.filterMap_eq_nil_iff]
  apply forall₂_congr
  intro thread _
  rw [findMeasure_profile]
  split
  · rename_i none'
    simpa [List.filter_eq_nil_iff] using none'
  · rename_i some'
    simpa [List.filter_eq_nil_iff] using some'

/-- The merged measures are those of one measure for each method exactly if every sampled method is registered
    and the threads after the first that sampled it have no waiting times for it. -/
theorem merged_methods_iff (registeredMethodNames : List Int) (threads : List (List (Int × Sample))) :
    (∀ methodId, totalOfOption (findMeasure methodId (mergedProfiles registeredMethodNames threads)) =
        total (single methodId threads.flatten)) ↔
      ∀ methodId, (methodId ∈ registeredMethodNames ∨ ∀ thread ∈ threads, ∀ sample ∈ thread, sample.1 ≠ methodId) ∧
        ((foundMeasures methodId threads).tail.map lostBy).sum = 0 := by
  apply forall_congr'
  intro methodId
  rw [total_single_flatten,← total_merged,← foundMeasures_nil_iff]
  by_cases registered : methodId ∈ registeredMethodNames
  · rw [findMeasure_mergedProfiles registered,← foundMeasures,left_eq_add]
    simp [registered]
  · rw [findMeasure_mergedProfiles_unregistered registered]
    cases found : foundMeasures methodId threads with
    | nil => simp [registered,merged]
    | cons first later =>
      simp only [registered,false_or,List.cons_ne_nil,false_and,iff_false]
      intro same
      have sampled := samples_pos (found ▸ List.mem_cons_self : first ∈ foundMeasures methodId threads)
      have counted := congrArg Prod.fst (total_merged (first :: later))
      rw [← same,List.map_cons,List.sum_cons] at counted
      have positive : (0 : Nat) = first.samples + ((later.map total).sum).1 := counted
      omega

/-! ## Call trees -/

/-- Measures side by side, in the order of their vector, each with its submethods; a vector that is `NULL` is
    the empty one, since every vector is made for its first measure. -/
inductive Forest
  | nil
  | node (measure : PerformanceMeasure) (subMethods siblings : Forest)

namespace Forest

/-- The methods of the roots. -/
def methodIds : Forest → List Int
  | nil => []
  | node measure _ siblings => measure.methodId :: siblings.methodIds

/-- No two measures side by side are of one method. -/
def Apart : Forest → Prop
  | nil => True
  | node measure subMethods siblings =>
    measure.methodId ∉ siblings.methodIds ∧ subMethods.Apart ∧ siblings.Apart

/-- The measure at the end of a path, which begins with a root's method. -/
def find : Forest → Int → List Int → Option PerformanceMeasure
  | nil, _, _ => none
  | node measure subMethods siblings, methodId, rest =>
    if measure.methodId = methodId then
      match rest with
      | [] => some measure
      | next :: later => subMethods.find next later
    else siblings.find methodId rest

/-- A measure without submethods takes over the thread's. -/
def mergeOrTakeOver (subMethods : Forest) (mergeSubMethods : Forest → Forest) : Forest → Forest
  | nil => subMethods
  | node measure submethods siblings => mergeSubMethods (node measure submethods siblings)

/-- Adds a measure with its submethods to the first one of its method, or puts it at the end. -/
def addNode (measure : PerformanceMeasure) (subMethods : Forest) (mergeSubMethods : Forest → Forest) : Forest → Forest
  | nil => node measure subMethods nil
  | node globalPm globalSubMethods siblings =>
    if globalPm.methodId = measure.methodId then
      node (addMeasure globalPm measure) (mergeOrTakeOver subMethods mergeSubMethods globalSubMethods) siblings
    else node globalPm globalSubMethods (addNode measure subMethods mergeSubMethods siblings)

/-- Of the thread's measures into the global ones. -/
def mergeMeasures : Forest → Forest → Forest
  | nil, globalNode => globalNode
  | node measure subMethods siblings, globalNode =>
    siblings.mergeMeasures (addNode measure subMethods subMethods.mergeMeasures globalNode)

/-- Of a `StackTraceLogger`: the first thread's roots are kept as they are. -/
def createMeasuresForThread (measuresRoots threadMeasureRoots : Forest) : Forest :=
  match measuresRoots with
  | nil => threadMeasureRoots
  | node measure subMethods siblings => threadMeasureRoots.mergeMeasures (node measure subMethods siblings)

end Forest

/-- Two measures that were found for one path, the earlier first. -/
def combine : Option PerformanceMeasure → Option PerformanceMeasure → Option PerformanceMeasure
  | none, later => later
  | some first, none => some first
  | some first, some later => some (addMeasure first later)

@[simp] theorem combine_none (found : Option PerformanceMeasure) : combine found none = found := by
  cases found <;> rfl

@[simp] theorem none_combine (found : Option PerformanceMeasure) : combine none found = found := rfl

namespace Forest

/-- A path that begins with another method than the first one's is that of a sibling. -/
theorem find_other {measure : PerformanceMeasure} {subMethods siblings : Forest} {methodId : Int}
    (other : ¬ measure.methodId = methodId) (rest : List Int) :
    (node measure subMethods siblings).find methodId rest = siblings.find methodId rest := by
  cases rest <;> simp only [find,if_neg other]

theorem find_root {measure : PerformanceMeasure} {subMethods siblings : Forest} {methodId : Int}
    (own : measure.methodId = methodId) : (node measure subMethods siblings).find methodId [] = some measure := by
  simp only [find,if_pos own]

theorem find_below {measure : PerformanceMeasure} {subMethods siblings : Forest} {methodId : Int}
    (own : measure.methodId = methodId) (next : Int) (later : List Int) :
    (node measure subMethods siblings).find methodId (next :: later) = subMethods.find next later := by
  simp only [find,if_pos own]

theorem find_none {forest : Forest} {methodId : Int} (missing : methodId ∉ forest.methodIds) (rest : List Int) :
    forest.find methodId rest = none := by
  induction forest with
  | nil => rfl
  | node measure subMethods siblings _ ih =>
    rw [methodIds,List.mem_cons,not_or] at missing
    rw [find_other (Ne.symm missing.1)]
    exact ih missing.2

/-- Paths of other methods are left alone; on its own the measure and its submethods are added. -/
theorem find_addNode {measure : PerformanceMeasure} {subMethods : Forest} {mergeSubMethods : Forest → Forest}
    (merges : ∀ globalNode next later, (mergeSubMethods globalNode).find next later =
      combine (globalNode.find next later) (subMethods.find next later))
    (globalNode : Forest) (methodId : Int) (rest : List Int) :
    (addNode measure subMethods mergeSubMethods globalNode).find methodId rest =
      combine (globalNode.find methodId rest) ((node measure subMethods nil).find methodId rest) := by
  induction globalNode with
  | nil => rfl
  | node globalPm globalSubMethods siblings _ ih =>
    by_cases same : globalPm.methodId = measure.methodId
    · rw [addNode,if_pos same]
      by_cases own : measure.methodId = methodId
      · have own' : globalPm.methodId = methodId := same.trans own
        cases rest with
        | nil =>
          rw [find_root (by rwa [addMeasure_methodId]),find_root own',find_root own]
          rfl
        | cons next later =>
          rw [find_below (by rwa [addMeasure_methodId]),find_below own',find_below own]
          cases globalSubMethods with
          | nil => rfl
          | node first firstSubMethods others => exact merges _ next later
      · have other : ¬ globalPm.methodId = methodId := fun own' => own (same.symm.trans own')
        rw [find_other (by rwa [addMeasure_methodId]),find_other other,find_other own]
        exact (combine_none _).symm
    · rw [addNode,if_neg same]
      by_cases own' : globalPm.methodId = methodId
      · have other : ¬ measure.methodId = methodId := fun own => same (own'.trans own.symm)
        rw [find_other other]
        cases rest with
        | nil =>
          rw [find_root own',find_root own']
          exact (combine_none _).symm
        | cons next later =>
          rw [find_below own',find_below own']
          exact (combine_none _).symm
      · rw [find_other own',find_other own']
        exact ih

theorem find_mergeMeasures {threadNode : Forest} (apart : threadNode.Apart) (globalNode : Forest) (methodId : Int)
    (rest : List Int) : (threadNode.mergeMeasures globalNode).find methodId rest =
      combine (globalNode.find methodId rest) (threadNode.find methodId rest) := by
  induction threadNode generalizing globalNode methodId rest with
  | nil => exact (combine_none _).symm
  | node measure subMethods siblings ihSubMethods ihSiblings =>
    obtain ⟨fresh,apartSubMethods,apartSiblings⟩ := apart
    rw [mergeMeasures,ihSiblings apartSiblings,find_addNode (ihSubMethods apartSubMethods)]
    by_cases own : measure.methodId = methodId
    · rw [own] at fresh
      rw [find_none fresh,combine_none]
      cases rest with
      | nil => rw [find_root own,find_root own]
      | cons next later => rw [find_below own,find_below own]
    · rw [find_other own,find_other own]
      exact congrArg (combine · _) (combine_none _)

theorem find_createMeasuresForThread {threadMeasureRoots : Forest} (apart : threadMeasureRoots.Apart)
    (measuresRoots : Forest) (methodId : Int) (rest : List Int) :
    (createMeasuresForThread measuresRoots threadMeasureRoots).find methodId rest =
      combine (measuresRoots.find methodId rest) (threadMeasureRoots.find methodId rest) := by
  cases measuresRoots with
  | nil => rfl
  | node measure subMethods siblings => exact find_mergeMeasures apart _ methodId rest

end Forest

/-- The tree of a thread's calls, in which no method has two measures below one. -/
def CallTree := { forest : Forest // forest.Apart }

def CallTree.find (tree : CallTree) (methodId : Int) (rest : List Int) : Option PerformanceMeasure :=
  tree.1.find methodId rest

/-- The measures at the indices with all below them, down to the given depth. -/
def Forest.ofNodes (trace : StackTrace) : Nat → List Nat → Forest
  | 0, _ => .nil
  | depth + 1, nodes => nodes.foldr (fun index siblings => match trace.nodes[index]? with
      | none => siblings
      | some found => .node found.measure (ofNodes trace depth found.subMethods) siblings) .nil

theorem Forest.mem_methodIds_ofNodes {trace : StackTrace} {depth : Nat} {nodes : List Nat} {methodId : Int}
    (root : methodId ∈ (ofNodes trace (depth + 1) nodes).methodIds) :
    ∃ index ∈ nodes, ∃ found, trace.nodes[index]? = some found ∧ found.measure.methodId = methodId := by
  unfold ofNodes at root
  induction nodes with
  | nil => cases root
  | cons index rest ih =>
    rw [List.foldr_cons] at root
    cases at' : trace.nodes[index]? with
    | none =>
      rw [at'] at root
      obtain ⟨other,member,found⟩ := ih root
      exact ⟨other,List.mem_cons_of_mem _ member,found⟩
    | some found =>
      rw [at'] at root
      rcases List.mem_cons.mp root with own | later
      · exact ⟨index,List.mem_cons_self,found,at',own.symm⟩
      · obtain ⟨other,member,found'⟩ := ih later
        exact ⟨other,List.mem_cons_of_mem _ member,found'⟩

/-- The tree that a thread keeps has no method twice below one. -/
theorem Forest.ofNodes_apart {trace : StackTrace} (tree : Tree trace) (depth : Nat) (caller : Option Nat) :
    (ofNodes trace depth (children trace caller)).Apart := by
  induction depth generalizing caller with
  | zero => trivial
  | succ depth ih =>
    have listed := fun index => (tree.listed caller index).mp
    have once := tree.once caller
    generalize children trace caller = nodes at listed once
    induction nodes with
    | nil => trivial
    | cons index rest ihRest =>
      obtain ⟨fresh,once'⟩ := List.nodup_cons.mp once
      have apart := ihRest (fun other member => listed other (List.mem_cons_of_mem _ member)) once'
      obtain ⟨named,shaped⟩ := listed index List.mem_cons_self
      rw [StackTrace.shape,List.getElem?_map,Option.map_eq_some_iff] at shaped
      obtain ⟨found,at',same⟩ := shaped
      have split : ofNodes trace (depth + 1) (index :: rest) =
          node found.measure (ofNodes trace depth found.subMethods) (ofNodes trace (depth + 1) rest) := by
        rw [ofNodes,List.foldr_cons,at']
        rfl
      rw [split]
      refine ⟨?_,?_,apart⟩
      · intro again
        obtain ⟨other,member,found',at'',own⟩ := mem_methodIds_ofNodes again
        obtain ⟨named',shaped'⟩ := listed other (List.mem_cons_of_mem _ member)
        have shaped : trace.shape[index]? = some (found.measure.methodId,caller) := by
          rw [StackTrace.shape,List.getElem?_map,at']
          exact congrArg some (Prod.ext rfl (Prod.ext_iff.mp same).2)
        have methodId : named' = found.measure.methodId := by
          rw [StackTrace.shape,List.getElem?_map,at'',Option.map_some,Option.some.injEq,Prod.mk.injEq,own] at shaped'
          exact shaped'.1.symm
        rw [methodId,← shaped] at shaped'
        have inside := lt_length_of_some shaped
        rw [(List.getElem?_inj inside tree.apart).mp shaped'.symm] at fresh
        exact fresh member
      · have below := ih (some index)
        rw [show children trace (some index) = found.subMethods by simp only [children,at']; rfl] at below
        exact below

/-- The call tree of a thread that keeps stack traces. -/
def CallTree.ofStackTrace (trace : StackTrace) (tree : Tree trace) : CallTree :=
  ⟨Forest.ofNodes trace trace.nodes.length trace.rootStackTraceInfos,Forest.ofNodes_apart tree _ none⟩

/-- The call tree of all threads, after each of them has ended in turn. -/
def mergedTrees (threads : List CallTree) : Forest :=
  threads.foldl (fun measuresRoots thread => Forest.createMeasuresForThread measuresRoots thread.1) .nil

theorem combine_merged (found : List PerformanceMeasure) (later : Option PerformanceMeasure) :
    combine (merged found) later = merged (found ++ later.toList) := by
  cases later with
  | none => rw [combine_none,Option.toList_none,List.append_nil]
  | some measure =>
    rw [Option.toList_some,merged_concat]
    cases merged found <;> rfl

theorem find_mergedTrees (threads : List CallTree) (methodId : Int) (rest : List Int) :
    (mergedTrees threads).find methodId rest = merged (threads.filterMap fun thread => thread.find methodId rest) := by
  suffices ∀ (measuresRoots : Forest) (found : List PerformanceMeasure),
      measuresRoots.find methodId rest = merged found →
      (threads.foldl (fun roots thread => Forest.createMeasuresForThread roots thread.1) measuresRoots).find methodId
          rest = merged (found ++ threads.filterMap fun thread => thread.find methodId rest) from this .nil [] rfl
  induction threads with
  | nil =>
    intro measuresRoots found first
    rw [List.filterMap_nil,List.append_nil]
    exact first
  | cons thread later ih =>
    intro measuresRoots found first
    have next : (Forest.createMeasuresForThread measuresRoots thread.1).find methodId rest =
        merged (found ++ (thread.find methodId rest).toList) := by
      rw [Forest.find_createMeasuresForThread thread.2,first]
      exact combine_merged found _
    rw [List.foldl_cons,ih _ _ next,List.append_assoc,List.filterMap_cons]
    cases thread.find methodId rest <;> rfl

/-- The merged tree holds at every path what the threads' trees hold there together exactly if the threads after
    the first that has the path have no waiting times there. -/
theorem merged_trees_iff (threads : List CallTree) :
    (∀ methodId rest, totalOfOption ((mergedTrees threads).find methodId rest) =
        (threads.map fun thread => totalOfOption (thread.find methodId rest)).sum) ↔
      ∀ methodId rest, ((threads.filterMap fun thread => thread.find methodId rest).tail.map lostBy).sum = 0 := by
  apply forall₂_congr
  intro methodId rest
  have found : (threads.map fun thread => totalOfOption (thread.find methodId rest)).sum =
      ((threads.filterMap fun thread => thread.find methodId rest).map total).sum := by
    induction threads with
    | nil => rfl
    | cons thread later ih =>
      rw [List.map_cons,List.sum_cons,ih,List.filterMap_cons]
      cases thread.find methodId rest with
      | none => exact zero_add _
      | some measure => rfl
  rw [found,find_mergedTrees,← total_merged,left_eq_add]

/-- In both modes, and for the threads in any order, the merged measures hold all samples exactly if the threads
    after the first that has a method, or a path, have no waiting times for it, and every sampled method is
    registered where methods are merged by themselves. -/
theorem profiles_merged_iff (registeredMethodNames : List Int) (threads : List (List (Int × Sample)))
    (trees : List CallTree) :
    ((∀ methodId, totalOfOption (findMeasure methodId (mergedProfiles registeredMethodNames threads)) =
        total (single methodId threads.flatten)) ↔
      ∀ methodId,
        (methodId ∈ registeredMethodNames ∨ ∀ thread ∈ threads, ∀ sample ∈ thread, sample.1 ≠ methodId) ∧
          ((foundMeasures methodId threads).tail.map lostBy).sum = 0) ∧
    ((∀ methodId rest, totalOfOption ((mergedTrees trees).find methodId rest) =
        (trees.map fun thread => totalOfOption (thread.find methodId rest)).sum) ↔
      ∀ methodId rest, ((trees.filterMap fun thread => thread.find methodId rest).tail.map lostBy).sum = 0) :=
  ⟨merged_methods_iff registeredMethodNames threads,merged_trees_iff trees⟩

/-- A thread that has waited 5 ns for a monitor in a method ends after another that has. -/
theorem waiting_lost : ¬ ∀ (registeredMethodNames : List Int) (threads : List (List (Int × Sample))),
    (∀ thread ∈ threads, ∀ sample ∈ thread, sample.1 ∈ registeredMethodNames) → ∀ methodId,
      totalOfOption (findMeasure methodId (mergedProfiles registeredMethodNames threads)) =
        total (single methodId threads.flatten) := by
  intro merges
  let waited : Sample := { exclusive := Pi.single .monitorWait 5,inclusive := Pi.single .monitorWait 5,calleeTime := 0 }
  have same := merges [1] [[(1,waited)],[(1,waited)]] (by simp) 1
  have five := congrFun (congrArg (fun total : Total => total.2.1) same) .monitorWait
  revert five
  decide

end Vexjine.ProfileMerging
