import Mathlib
import Vexjine.IoSimulation

/-!
# The files of exported and imported measurements

The measurements of a prediction method are exported to, and imported from, a file that is named after a
prefix and the I/O point of the method. The three predictors describe their points when they create a method
and again when they export its measurements.
-/

namespace Vexjine.PredictionFiles
open Vexjine.IoSimulation (Predictor)

structure IoState where
  threadsInIo : UInt32 := 0
  traceHash : Int32 := 0
  ioOperation : Int32 := 0
  deriving DecidableEq

namespace IoState
variable (ioState : IoState)

/-- The number of threads, at most one less than the given number. -/
def getThreadsInIO (maxNumberOfThreadsPerformingIoInParallel : UInt32) : IoState :=
  if ioState.threadsInIo ≥ maxNumberOfThreadsPerformingIoInParallel then
    { ioState with threadsInIo := maxNumberOfThreadsPerformingIoInParallel - 1 }
  else ioState

/-- Appends to what is in the stream. -/
def getIoPointFileSuffix (str : String) : String :=
  let str := if ioState.threadsInIo ≠ 0 then str ++ "_" ++ toString (ioState.threadsInIo + 1).toNat ++ "thr" else str
  if ioState.traceHash ≠ 0 then str ++ "_" ++ toString ioState.traceHash.toInt ++ "trc"
  else if ioState.ioOperation ≠ 0 then str ++ "_" ++ toString ioState.ioOperation.toInt ++ "iop"
  else str

end IoState

/-- What `import` reads, and what `exportMeasurements` writes. -/
def fileName (filenamePrefix : String) (ioState : IoState) : String :=
  ioState.getIoPointFileSuffix filenamePrefix ++ ".csv"

/-- A prediction method, by the file that it was created from, if any. -/
structure PredictionMethod where
  importedFrom : Option String
  deriving DecidableEq

/-- `PredictionMethodFactory::getPredictionMethod`, with the prefix of the files to import. -/
def getPredictionMethod (ioImportMeasurementsFilesPrefix : Option String) (ioState : IoState) : PredictionMethod :=
  ⟨ioImportMeasurementsFilesPrefix.map fun filenamePrefix => fileName filenamePrefix ioState⟩

/-- A method's measurements and the file that they are written to. -/
abbrev Export := PredictionMethod × String

/-- The indices of an array of methods for each number of threads. -/
def indices (maxNumberOfThreadsPerformingIoInParallel : UInt32) : List UInt32 :=
  (List.range maxNumberOfThreadsPerformingIoInParallel.toNat).map UInt32.ofNat

section Predictors
variable (ioImport : Option String) (maxNumberOfThreadsPerformingIoInParallel : UInt32)

/-! ## The global predictor -/

namespace GlobalIoPrediction

/-- The elements of `predictionMethods`. -/
def predictionMethods (i : UInt32) : PredictionMethod := getPredictionMethod ioImport { threadsInIo := i }

def exportMeasurements (outputDirFileName : String) : List Export :=
  (indices maxNumberOfThreadsPerformingIoInParallel).map fun i =>
    (predictionMethods ioImport i,fileName outputDirFileName { threadsInIo := i })

end GlobalIoPrediction

/-! ## The predictor of I/O operations -/

namespace OperationAwareIoPrediction

def TOTAL_IO_OPERATIONS : Nat := 30

def predictionsPerIoOperation (j : UInt32) (i : Int32) : PredictionMethod :=
  getPredictionMethod ioImport { threadsInIo := j,traceHash := 0,ioOperation := i }

/-- The operation 0 has a method that is not exported. -/
def exportMeasurements (outputDirFileName : String) : List Export :=
  (indices maxNumberOfThreadsPerformingIoInParallel).flatMap fun threads =>
    ((List.range TOTAL_IO_OPERATIONS).tail.map Int32.ofNat).map fun methodId =>
      (predictionsPerIoOperation ioImport threads methodId,
        fileName outputDirFileName { threadsInIo := threads,traceHash := 0,ioOperation := methodId })

end OperationAwareIoPrediction

/-! ## The predictor of invocation points -/

/-- For each number of threads the methods by trace hash, in no particular order. -/
structure StateAwareIoPrediction where
  predictionsPerInvocationPoint : UInt32 → List (Int32 × PredictionMethod) := fun _ => []

namespace StateAwareIoPrediction
variable (predictor : StateAwareIoPrediction)

/-- Registers the invocation point unless it is registered. -/
def getPredictionMethodOfInvocationPoint (ioState : IoState) : StateAwareIoPrediction :=
  let point := ioState.getThreadsInIO maxNumberOfThreadsPerformingIoInParallel
  let currentStatus := predictor.predictionsPerInvocationPoint point.threadsInIo
  match currentStatus.lookup point.traceHash with
  | some _ => predictor
  | none =>
    { predictionsPerInvocationPoint := Function.update predictor.predictionsPerInvocationPoint point.threadsInIo
        ((point.traceHash,getPredictionMethod ioImport point) :: currentStatus) }

/-- The predictor after lookups of the given I/O points. -/
def lookedUp (ioStates : List IoState) : StateAwareIoPrediction :=
  ioStates.foldl (getPredictionMethodOfInvocationPoint ioImport maxNumberOfThreadsPerformingIoInParallel) {}

def exportMeasurements (outputDirFileName : String) : List Export :=
  (indices maxNumberOfThreadsPerformingIoInParallel).flatMap fun threadsInIO =>
    (predictor.predictionsPerInvocationPoint threadsInIO).map fun entry =>
      (entry.2,fileName outputDirFileName { threadsInIo := threadsInIO,traceHash := entry.1 })

end StateAwareIoPrediction

/-- What a predictor exports after the given I/O points have been looked up. -/
def exportMeasurements (predictor : Predictor) (ioStates : List IoState) (outputDirFileName : String) : List Export :=
  match predictor with
  | .noIoPrediction => []
  | .globalIoPrediction =>
    GlobalIoPrediction.exportMeasurements ioImport maxNumberOfThreadsPerformingIoInParallel outputDirFileName
  | .stateAwareIoPrediction =>
    (StateAwareIoPrediction.lookedUp ioImport maxNumberOfThreadsPerformingIoInParallel ioStates).exportMeasurements
      maxNumberOfThreadsPerformingIoInParallel outputDirFileName
  | .operationAwareIoPrediction =>
    OperationAwareIoPrediction.exportMeasurements ioImport maxNumberOfThreadsPerformingIoInParallel outputDirFileName

end Predictors

/-! ## The law -/

/-- Every method was created from the file that its measurements are written to, and no file is written twice. -/
structure SameFiles (exports : List Export) : Prop where
  read : ∀ entry ∈ exports, entry.1.importedFrom = some entry.2
  distinct : (exports.map Prod.snd).Nodup

/-- The lookups of two I/O points find the same method. -/
def SamePoint (maxNumberOfThreadsPerformingIoInParallel : UInt32) (first second : IoState) : Prop :=
  (first.getThreadsInIO maxNumberOfThreadsPerformingIoInParallel).threadsInIo =
      (second.getThreadsInIO maxNumberOfThreadsPerformingIoInParallel).threadsInIo ∧
    first.traceHash = second.traceHash

/-- A point without a trace hash is looked up without an operation at first. -/
def Traced (maxNumberOfThreadsPerformingIoInParallel : UInt32) (ioStates : List IoState) : Prop :=
  ∀ before ioState after, ioStates = before ++ ioState :: after →
    (∀ earlier ∈ before, ¬ SamePoint maxNumberOfThreadsPerformingIoInParallel earlier ioState) →
    ioState.traceHash = 0 → ioState.ioOperation = 0

/-! ## Names -/

/-- What follows a word of a name. -/
private def IsRest (rest : List Char) : Prop := rest = [] ∨ ∃ more, rest = '_' :: more

private theorem word_unique {word other rest more : List Char} (isWord : '_' ∉ word) (isOther : '_' ∉ other)
    (isRest : IsRest rest) (isMore : IsRest more) (same : word ++ rest = other ++ more) : word = other ∧ rest = more := by
  induction word generalizing other with
  | nil =>
    cases other with
    | nil => exact ⟨rfl,same⟩
    | cons c others =>
      exfalso
      rcases isRest with rfl | ⟨tail,rfl⟩
      · simp at same
      · simp only [List.nil_append,List.cons_append,List.cons.injEq] at same
        exact isOther (same.1 ▸ List.mem_cons_self)
  | cons c words ih =>
    cases other with
    | nil =>
      exfalso
      rcases isMore with rfl | ⟨tail,rfl⟩
      · simp at same
      · simp only [List.nil_append,List.cons_append,List.cons.injEq] at same
        exact isWord (same.1 ▸ List.mem_cons_self)
    | cons d others =>
      simp only [List.cons_append,List.cons.injEq] at same
      obtain ⟨rfl,tails⟩ := same
      obtain ⟨rfl,rests⟩ := ih (fun member => isWord (List.mem_cons_of_mem _ member))
        (fun member => isOther (List.mem_cons_of_mem _ member)) tails
      exact ⟨rfl,rests⟩

private theorem underscore_not_in_int (n : Int) : '_' ∉ n.repr.toList := by
  rw [Int.repr_eq_if]
  split_ifs
  · simp [Nat.toList_repr]
  · simp [Nat.toList_repr]

/-- The word for the number of threads, without its separator. -/
private def threadsWord (threadsInIo : UInt32) : List Char := (toString (threadsInIo + 1).toNat).toList ++ ['t','h','r']

private def traceWord (traceHash : Int32) : List Char := (toString traceHash.toInt).toList ++ ['t','r','c']

private def operationWord (ioOperation : Int32) : List Char := (toString ioOperation.toInt).toList ++ ['i','o','p']

private theorem threadsWord_word (threadsInIo : UInt32) : '_' ∉ threadsWord threadsInIo := by
  simp [threadsWord]

private theorem traceWord_word (traceHash : Int32) : '_' ∉ traceWord traceHash := by
  have digits := underscore_not_in_int traceHash.toInt
  simp [traceWord,digits]

private theorem operationWord_word (ioOperation : Int32) : '_' ∉ operationWord ioOperation := by
  have digits := underscore_not_in_int ioOperation.toInt
  simp [operationWord,digits]

private theorem threadsWord_injective {first second : UInt32} (same : threadsWord first = threadsWord second) :
    first = second := by
  have digits := List.append_cancel_right same
  have numbers : (first + 1).toNat = (second + 1).toNat := by
    rw [String.toList_inj,Nat.toString_eq_repr,Nat.toString_eq_repr] at digits
    exact Nat.repr_injective digits
  have next : first + 1 = second + 1 := UInt32.toNat.inj numbers
  grind

private theorem traceWord_injective {first second : Int32} (same : traceWord first = traceWord second) :
    first = second := by
  have digits := List.append_cancel_right same
  rw [String.toList_inj,Int.toString_eq_repr,Int.toString_eq_repr] at digits
  exact Int32.toInt.inj (Int.repr_injective digits)

private theorem operationWord_injective {first second : Int32} (same : operationWord first = operationWord second) :
    first = second := by
  have digits := List.append_cancel_right same
  rw [String.toList_inj,Int.toString_eq_repr,Int.toString_eq_repr] at digits
  exact Int32.toInt.inj (Int.repr_injective digits)

/-- The words of the three kinds end differently. -/
private theorem threadsWord_ne_traceWord (threadsInIo : UInt32) (traceHash : Int32) :
    threadsWord threadsInIo ≠ traceWord traceHash := by
  intro same
  have ends := congrArg List.getLast? same
  simp [threadsWord,traceWord] at ends

private theorem threadsWord_ne_operationWord (threadsInIo : UInt32) (ioOperation : Int32) :
    threadsWord threadsInIo ≠ operationWord ioOperation := by
  intro same
  have ends := congrArg List.getLast? same
  simp [threadsWord,operationWord] at ends

private theorem traceWord_ne_operationWord (traceHash ioOperation : Int32) :
    traceWord traceHash ≠ operationWord ioOperation := by
  intro same
  have ends := congrArg List.getLast? same
  simp [traceWord,operationWord] at ends

/-- The end of a name: its trace hash, else its operation, if any. -/
private def pointWord (ioState : IoState) : Option (List Char) :=
  if ioState.traceHash ≠ 0 then some (traceWord ioState.traceHash)
  else if ioState.ioOperation ≠ 0 then some (operationWord ioState.ioOperation) else none

private def separated (word : Option (List Char)) : List Char := (word.map (List.cons '_')).getD []

private theorem fileName_toList (filenamePrefix : String) (ioState : IoState) :
    (fileName filenamePrefix ioState).toList = filenamePrefix.toList ++
      (separated (if ioState.threadsInIo ≠ 0 then some (threadsWord ioState.threadsInIo) else none) ++
        separated (pointWord ioState)) ++ ['.','c','s','v'] := by
  unfold fileName IoState.getIoPointFileSuffix pointWord
  split_ifs <;> simp [separated,threadsWord,traceWord,operationWord]

private theorem pointWord_word {ioState : IoState} {word : List Char} (names : pointWord ioState = some word) :
    '_' ∉ word ∧ ∀ threadsInIo, threadsWord threadsInIo ≠ word := by
  unfold pointWord at names
  split_ifs at names
  · cases names
    exact ⟨traceWord_word _,fun threadsInIo => threadsWord_ne_traceWord threadsInIo _⟩
  · cases names
    exact ⟨operationWord_word _,fun threadsInIo => threadsWord_ne_operationWord threadsInIo _⟩

private theorem pointWord_traced {ioState : IoState} (traced : ioState.traceHash ≠ 0) :
    pointWord ioState = some (traceWord ioState.traceHash) := if_pos traced

private theorem pointWord_untraced {ioState : IoState} (untraced : ioState.traceHash = 0) : pointWord ioState =
    if ioState.ioOperation ≠ 0 then some (operationWord ioState.ioOperation) else none :=
  if_neg (not_not.mpr untraced)

private theorem untraced_of_eq {first second : IoState} (same : pointWord first = pointWord second)
    (untraced : first.traceHash = 0) : second.traceHash = 0 := by
  by_contra traced
  rw [pointWord_untraced untraced,pointWord_traced traced] at same
  split_ifs at same
  · exact traceWord_ne_operationWord _ _ (Option.some.inj same).symm

private theorem pointWord_eq_iff (first second : IoState) : pointWord first = pointWord second ↔
    first.traceHash = second.traceHash ∧ (first.traceHash = 0 → first.ioOperation = second.ioOperation) := by
  constructor
  · intro same
    by_cases untraced : first.traceHash = 0
    · have untracedToo := untraced_of_eq same untraced
      refine ⟨untraced.trans untracedToo.symm,fun _ => ?_⟩
      rw [pointWord_untraced untraced,pointWord_untraced untracedToo] at same
      split_ifs at same with some_ someToo noneToo
      · exact operationWord_injective (Option.some.inj same)
      · exact (not_not.mp some_).trans (not_not.mp noneToo).symm
    · have tracedToo : second.traceHash ≠ 0 := fun untracedToo => untraced (untraced_of_eq same.symm untracedToo)
      rw [pointWord_traced untraced,pointWord_traced tracedToo] at same
      exact ⟨traceWord_injective (Option.some.inj same),fun zero => absurd zero untraced⟩
  · rintro ⟨hash,operation⟩
    by_cases untraced : first.traceHash = 0
    · rw [pointWord_untraced untraced,pointWord_untraced (hash.symm.trans untraced),operation untraced]
    · rw [pointWord_traced untraced,pointWord_traced (fun zero => untraced (hash.trans zero)),hash]

private theorem isRest_separated (word : Option (List Char)) : IsRest (separated word) := by
  cases word with
  | none => exact .inl rfl
  | some word => exact .inr ⟨word,rfl⟩

private theorem separated_injective {first second : Option (List Char)} (same : separated first = separated second) :
    first = second := by
  cases first <;> cases second <;> simp_all [separated]

/-- A word for a point is none for a number of threads. -/
private theorem separated_point_ne (ioState : IoState) (threadsInIo : UInt32) (rest : Option (List Char)) :
    separated (pointWord ioState) ≠ '_' :: threadsWord threadsInIo ++ separated rest := by
  intro same
  cases names : pointWord ioState with
  | none => simp [names,separated] at same
  | some word =>
    obtain ⟨isWord,different⟩ := pointWord_word names
    rw [names] at same
    have tails : word ++ [] = threadsWord threadsInIo ++ separated rest := by
      simpa [separated] using same
    obtain ⟨equal,-⟩ := word_unique isWord (threadsWord_word threadsInIo) (.inl rfl) (isRest_separated rest) tails
    exact different threadsInIo equal.symm

/-- A name determines its number of threads and its trace hash, and its operation where there is no trace hash. -/
theorem fileName_eq_iff (filenamePrefix : String) (first second : IoState) :
    fileName filenamePrefix first = fileName filenamePrefix second ↔
      first.threadsInIo = second.threadsInIo ∧ first.traceHash = second.traceHash ∧
        (first.traceHash = 0 → first.ioOperation = second.ioOperation) := by
  rw [← pointWord_eq_iff,← String.toList_inj,fileName_toList,fileName_toList]
  constructor
  · intro same
    have middle := List.append_cancel_left (List.append_cancel_right same)
    by_cases alone : first.threadsInIo = 0
    · by_cases aloneToo : second.threadsInIo = 0
      · simp only [alone,aloneToo,ne_eq,not_true_eq_false,if_false,separated,Option.map_none,Option.getD_none,
          List.nil_append] at middle
        exact ⟨alone.trans aloneToo.symm,separated_injective middle⟩
      · rw [if_neg (not_not.mpr alone),if_pos aloneToo] at middle
        exact absurd middle (separated_point_ne first second.threadsInIo (pointWord second))
    · by_cases aloneToo : second.threadsInIo = 0
      · rw [if_pos alone,if_neg (not_not.mpr aloneToo)] at middle
        exact absurd middle.symm (separated_point_ne second first.threadsInIo (pointWord first))
      · rw [if_pos alone,if_pos aloneToo] at middle
        have tails : threadsWord first.threadsInIo ++ separated (pointWord first) =
            threadsWord second.threadsInIo ++ separated (pointWord second) := List.tail_eq_of_cons_eq middle
        obtain ⟨threads,points⟩ := word_unique (threadsWord_word _) (threadsWord_word _) (isRest_separated _)
          (isRest_separated _) tails
        exact ⟨threadsWord_injective threads,separated_injective points⟩
  · rintro ⟨threads,point⟩
    rw [threads,point]

/-- The exported points have a trace hash or an operation. -/
private def Plain (point : IoState) : Prop := point.traceHash ≠ 0 → point.ioOperation = 0

private theorem plain_unique {filenamePrefix : String} {first second : IoState} (plain : Plain first)
    (plainToo : Plain second) (same : fileName filenamePrefix first = fileName filenamePrefix second) : first = second := by
  obtain ⟨threads,hash,operation⟩ := (fileName_eq_iff filenamePrefix first second).mp same
  have operations : first.ioOperation = second.ioOperation := by
    by_cases untraced : first.traceHash = 0
    · exact operation untraced
    · rw [plain untraced,plainToo (hash ▸ untraced)]
  cases first
  cases second
  simp_all

private theorem names_nodup (filenamePrefix : String) {points : List IoState} (distinct : points.Nodup)
    (plain : ∀ point ∈ points, Plain point) : (points.map (fileName filenamePrefix)).Nodup :=
  distinct.map_on fun first inFirst second inSecond => plain_unique (plain first inFirst) (plain second inSecond)

/-! ## Points -/

variable {maxThreads : UInt32}

private theorem mem_indices {i : UInt32} : i ∈ indices maxThreads ↔ i < maxThreads := by
  have bound := maxThreads.toNat_lt
  have own := i.toNat_lt
  rw [UInt32.lt_iff_toNat_lt]
  unfold indices
  simp only [List.mem_map,List.mem_range]
  constructor
  · rintro ⟨n,below,rfl⟩
    rw [UInt32.toNat_ofNat',Nat.mod_eq_of_lt (by omega)]
    exact below
  · intro below
    exact ⟨i.toNat,below,UInt32.ofNat_toNat⟩

private theorem indices_nodup : (indices maxThreads).Nodup := by
  have bound := maxThreads.toNat_lt
  apply List.nodup_range.map_on
  intro first inFirst second inSecond same
  rw [List.mem_range] at inFirst inSecond
  have numbers := congrArg UInt32.toNat same
  rwa [UInt32.toNat_ofNat',UInt32.toNat_ofNat',Nat.mod_eq_of_lt (by omega),Nat.mod_eq_of_lt (by omega)] at numbers

/-- Points of different numbers of threads differ. -/
private theorem points_nodup {Key : Type} {keys : UInt32 → List Key} {point : UInt32 → Key → IoState}
    (distinct : ∀ threads, (keys threads).Nodup) (threadsOf : ∀ threads key, (point threads key).threadsInIo = threads)
    (keyOf : ∀ threads, Function.Injective (point threads)) :
    ((indices maxThreads).flatMap fun threads => (keys threads).map (point threads)).Nodup := by
  rw [List.nodup_flatMap]
  refine ⟨fun threads _ => (distinct threads).map (keyOf threads),indices_nodup.imp ?_⟩
  intro first second differ point_ inFirst inSecond
  obtain ⟨key,-,rfl⟩ := List.mem_map.mp inFirst
  obtain ⟨other,-,same⟩ := List.mem_map.mp inSecond
  apply differ
  rw [← threadsOf first key,← same,threadsOf]

private theorem sameFiles_nil : SameFiles [] := by
  constructor
  · intro entry member
    cases member
  · exact List.nodup_nil

private theorem sameFiles_global (filenamePrefix : String) :
    SameFiles (GlobalIoPrediction.exportMeasurements (some filenamePrefix) maxThreads filenamePrefix) := by
  unfold GlobalIoPrediction.exportMeasurements
  constructor
  · intro entry member
    obtain ⟨i,-,rfl⟩ := List.mem_map.mp member
    rfl
  · have distinct : ((indices maxThreads).map fun i => ({ threadsInIo := i } : IoState)).Nodup :=
      indices_nodup.map fun first second same => congrArg IoState.threadsInIo same
    have names := names_nodup filenamePrefix distinct fun point member traced => by
      obtain ⟨i,-,rfl⟩ := List.mem_map.mp member
      rfl
    rw [List.map_map] at names ⊢
    exact names

private theorem sameFiles_operation (filenamePrefix : String) :
    SameFiles (OperationAwareIoPrediction.exportMeasurements (some filenamePrefix) maxThreads filenamePrefix) := by
  unfold OperationAwareIoPrediction.exportMeasurements
  constructor
  · intro entry member
    obtain ⟨threads,-,inside⟩ := List.mem_flatMap.mp member
    obtain ⟨methodId,-,rfl⟩ := List.mem_map.mp inside
    rfl
  · have distinct := @points_nodup maxThreads Int32
      (fun _ => (List.range OperationAwareIoPrediction.TOTAL_IO_OPERATIONS).tail.map Int32.ofNat)
      (fun threads methodId => { threadsInIo := threads,traceHash := 0,ioOperation := methodId })
      (fun _ => by decide) (fun _ _ => rfl) (fun _ first second same => congrArg IoState.ioOperation same)
    have names := names_nodup filenamePrefix distinct fun point member traced => by
      obtain ⟨threads,-,inside⟩ := List.mem_flatMap.mp member
      obtain ⟨methodId,-,rfl⟩ := List.mem_map.mp inside
      exact absurd rfl traced
    rw [List.map_flatMap] at names ⊢
    simp only [List.map_map] at names ⊢
    exact names

/-! ## Registered invocation points -/

variable {ioStates : List IoState} {ioImport : Option String}

/-- The lookup that registers its point. -/
private def First (maxThreads : UInt32) (ioStates : List IoState) (ioState : IoState) : Prop :=
  ∃ before after, ioStates = before ++ ioState :: after ∧ ∀ earlier ∈ before, ¬ SamePoint maxThreads earlier ioState

/-- The entry that the lookup of a point finds. -/
private def entryOf (ioImport : Option String) (maxThreads : UInt32) (ioState : IoState) : Int32 × PredictionMethod :=
  (ioState.traceHash,getPredictionMethod ioImport (ioState.getThreadsInIO maxThreads))

private theorem getThreadsInIO_traceHash (ioState : IoState) : (ioState.getThreadsInIO maxThreads).traceHash =
    ioState.traceHash := by
  unfold IoState.getThreadsInIO
  split_ifs <;> rfl

private theorem getThreadsInIO_ioOperation (ioState : IoState) : (ioState.getThreadsInIO maxThreads).ioOperation =
    ioState.ioOperation := by
  unfold IoState.getThreadsInIO
  split_ifs <;> rfl

private theorem first_snoc (ioState last : IoState) : First maxThreads (ioStates ++ [last]) ioState ↔
    First maxThreads ioStates ioState ∨ ioState = last ∧ ∀ earlier ∈ ioStates, ¬ SamePoint maxThreads earlier last := by
  constructor
  · rintro ⟨before,after,split,fresh⟩
    rcases List.eq_nil_or_concat after with rfl | ⟨middle,final,rfl⟩
    · obtain ⟨rfl,same⟩ := List.append_inj' split rfl
      cases same
      exact .inr ⟨rfl,fresh⟩
    · have parts : ioStates ++ [last] = (before ++ ioState :: middle) ++ [final] := by
        rw [split]
        simp
      obtain ⟨rfl,-⟩ := List.append_inj' parts rfl
      exact .inl ⟨before,middle,rfl,fresh⟩
  · rintro (⟨before,after,rfl,fresh⟩ | ⟨rfl,fresh⟩)
    · exact ⟨before,after ++ [last],by simp,fresh⟩
    · exact ⟨ioStates,[],rfl,fresh⟩

/-- The maps hold one entry for every point, made by the lookup that registered it. -/
private structure Registry (ioImport : Option String) (maxThreads : UInt32) (ioStates : List IoState)
    (predictor : StateAwareIoPrediction) : Prop where
  entries : ∀ threads entry, entry ∈ predictor.predictionsPerInvocationPoint threads ↔
    ∃ ioState, First maxThreads ioStates ioState ∧ (ioState.getThreadsInIO maxThreads).threadsInIo = threads ∧
      entry = entryOf ioImport maxThreads ioState
  complete : ∀ ioState ∈ ioStates, ∃ method, (ioState.traceHash,method) ∈
    predictor.predictionsPerInvocationPoint (ioState.getThreadsInIO maxThreads).threadsInIo
  distinct : ∀ threads, ((predictor.predictionsPerInvocationPoint threads).map Prod.fst).Nodup

private theorem registered_iff {predictor : StateAwareIoPrediction} (registry : Registry ioImport maxThreads ioStates predictor)
    (ioState : IoState) : ((predictor.predictionsPerInvocationPoint
      (ioState.getThreadsInIO maxThreads).threadsInIo).lookup ioState.traceHash).isSome ↔
        ∃ earlier ∈ ioStates, SamePoint maxThreads earlier ioState := by
  rw [List.lookup_isSome_iff]
  constructor
  · rintro ⟨entry,member,key⟩
    obtain ⟨earlier,⟨before,after,rfl,-⟩,threads,rfl⟩ := (registry.entries _ entry).mp member
    exact ⟨earlier,by simp,threads,(beq_iff_eq.mp key).symm⟩
  · rintro ⟨earlier,member,threads,hash⟩
    obtain ⟨method,found⟩ := registry.complete earlier member
    rw [threads] at found
    exact ⟨_,found,by simp [hash]⟩

private theorem registry_start : Registry ioImport maxThreads [] {} := by
  constructor
  · intro threads entry
    constructor
    · intro member
      cases member
    · rintro ⟨ioState,⟨before,after,split,-⟩,-⟩
      simp at split
  · intro ioState member
    cases member
  · intro threads
    exact List.nodup_nil

/-- A lookup of a registered point changes nothing. -/
private theorem registry_found {predictor : StateAwareIoPrediction} (registry : Registry ioImport maxThreads ioStates predictor)
    {last : IoState} (found : ∃ earlier ∈ ioStates, SamePoint maxThreads earlier last) :
    Registry ioImport maxThreads (ioStates ++ [last]) predictor := by
  obtain ⟨earlier,member,same⟩ := found
  refine ⟨fun threads entry => ?_,?_,registry.distinct⟩
  · rw [registry.entries]
    refine exists_congr fun ioState => and_congr_left' ?_
    rw [first_snoc]
    constructor
    · exact .inl
    · rintro (first | ⟨-,fresh⟩)
      · exact first
      · exact absurd same (fresh earlier member)
  · intro ioState inside
    rcases List.mem_append.mp inside with old | new
    · exact registry.complete ioState old
    · rw [List.mem_singleton] at new
      subst new
      obtain ⟨method,entry⟩ := registry.complete earlier member
      rw [same.1,same.2] at entry
      exact ⟨method,entry⟩

private def added (ioImport : Option String) (maxThreads : UInt32) (predictor : StateAwareIoPrediction) (last : IoState) :
    StateAwareIoPrediction :=
  ⟨Function.update predictor.predictionsPerInvocationPoint (last.getThreadsInIO maxThreads).threadsInIo
    (entryOf ioImport maxThreads last ::
      predictor.predictionsPerInvocationPoint (last.getThreadsInIO maxThreads).threadsInIo)⟩

private theorem added_self (predictor : StateAwareIoPrediction) (last : IoState) :
    (added ioImport maxThreads predictor last).predictionsPerInvocationPoint
      (last.getThreadsInIO maxThreads).threadsInIo = entryOf ioImport maxThreads last ::
        predictor.predictionsPerInvocationPoint (last.getThreadsInIO maxThreads).threadsInIo := Function.update_self ..

private theorem added_of_ne (predictor : StateAwareIoPrediction) {last : IoState} {threads : UInt32}
    (other : threads ≠ (last.getThreadsInIO maxThreads).threadsInIo) :
    (added ioImport maxThreads predictor last).predictionsPerInvocationPoint threads =
      predictor.predictionsPerInvocationPoint threads := Function.update_of_ne other ..

private theorem mem_added {predictor : StateAwareIoPrediction} {last : IoState} {threads : UInt32}
    {entry : Int32 × PredictionMethod} :
    entry ∈ (added ioImport maxThreads predictor last).predictionsPerInvocationPoint threads ↔
      entry ∈ predictor.predictionsPerInvocationPoint threads ∨
        (last.getThreadsInIO maxThreads).threadsInIo = threads ∧ entry = entryOf ioImport maxThreads last := by
  by_cases own : threads = (last.getThreadsInIO maxThreads).threadsInIo
  · subst own
    rw [added_self,List.mem_cons]
    tauto
  · rw [added_of_ne predictor own]
    constructor
    · exact .inl
    · rintro (old | ⟨same,-⟩)
      · exact old
      · exact absurd same.symm own

/-- A lookup of a new point adds its entry. -/
private theorem registry_added {predictor : StateAwareIoPrediction} (registry : Registry ioImport maxThreads ioStates predictor)
    {last : IoState} (fresh : ∀ earlier ∈ ioStates, ¬ SamePoint maxThreads earlier last) :
    Registry ioImport maxThreads (ioStates ++ [last]) (added ioImport maxThreads predictor last) := by
  constructor
  · intro threads entry
    rw [mem_added,registry.entries]
    simp only [first_snoc]
    constructor
    · rintro (⟨ioState,first,rest⟩ | ⟨own,same⟩)
      · exact ⟨ioState,.inl first,rest⟩
      · exact ⟨last,.inr ⟨rfl,fresh⟩,own,same⟩
    · rintro ⟨ioState,first | ⟨rfl,-⟩,rest⟩
      · exact .inl ⟨ioState,first,rest⟩
      · exact .inr rest
  · intro ioState inside
    rcases List.mem_append.mp inside with old | new
    · obtain ⟨method,entry⟩ := registry.complete ioState old
      exact ⟨method,mem_added.mpr (.inl entry)⟩
    · rw [List.mem_singleton] at new
      subst new
      exact ⟨_,mem_added.mpr (.inr ⟨rfl,rfl⟩)⟩
  · intro threads
    by_cases own : threads = (last.getThreadsInIO maxThreads).threadsInIo
    · subst own
      rw [added_self,List.map_cons,List.nodup_cons]
      refine ⟨?_,registry.distinct _⟩
      intro member
      obtain ⟨entry,inMap,key⟩ := List.mem_map.mp member
      obtain ⟨earlier,⟨before,after,rfl,-⟩,threads,rfl⟩ := (registry.entries _ entry).mp inMap
      exact fresh earlier (by simp) ⟨threads,key⟩
    · rw [added_of_ne predictor own]
      exact registry.distinct threads

private theorem registry_step {predictor : StateAwareIoPrediction} (registry : Registry ioImport maxThreads ioStates predictor)
    (last : IoState) : Registry ioImport maxThreads (ioStates ++ [last])
      (predictor.getPredictionMethodOfInvocationPoint ioImport maxThreads last) := by
  have registered := registered_iff registry last
  unfold StateAwareIoPrediction.getPredictionMethodOfInvocationPoint
  simp only [getThreadsInIO_traceHash]
  split
  next found =>
    rw [found] at registered
    exact registry_found registry (registered.mp rfl)
  next missing =>
    rw [missing] at registered
    apply registry_added registry
    intro other member same
    exact absurd (registered.mpr ⟨other,member,same⟩) (by simp)

private theorem registry_lookedUp : Registry ioImport maxThreads ioStates
    (StateAwareIoPrediction.lookedUp ioImport maxThreads ioStates) := by
  induction ioStates using List.reverseRecOn with
  | nil => exact registry_start
  | append_singleton earlier last ih =>
    unfold StateAwareIoPrediction.lookedUp at ih ⊢
    rw [List.foldl_append]
    exact registry_step ih last

/-! ## The law, for each predictor -/

private theorem getThreadsInIO_lt (positive : 0 < maxThreads) (ioState : IoState) :
    (ioState.getThreadsInIO maxThreads).threadsInIo < maxThreads := by
  unfold IoState.getThreadsInIO
  split_ifs with many
  · show maxThreads - 1 < maxThreads
    grind
  · exact UInt32.not_le.mp many

/-- The entry of a registered point is exported to the file it was read from unless the point has an operation only. -/
private theorem entry_read_iff (filenamePrefix : String) (ioState : IoState) :
    (entryOf (some filenamePrefix) maxThreads ioState).2.importedFrom = some (fileName filenamePrefix
      { threadsInIo := (ioState.getThreadsInIO maxThreads).threadsInIo,traceHash := ioState.traceHash }) ↔
        (ioState.traceHash = 0 → ioState.ioOperation = 0) := by
  show some (fileName filenamePrefix (ioState.getThreadsInIO maxThreads)) = some _ ↔ _
  rw [Option.some.injEq,fileName_eq_iff,getThreadsInIO_traceHash,getThreadsInIO_ioOperation]
  tauto

private theorem sameFiles_stateAware_iff (filenamePrefix : String) (positive : 0 < maxThreads) :
    SameFiles ((StateAwareIoPrediction.lookedUp (some filenamePrefix) maxThreads ioStates).exportMeasurements
      maxThreads filenamePrefix) ↔ Traced maxThreads ioStates := by
  have registry := @registry_lookedUp maxThreads ioStates (some filenamePrefix)
  unfold StateAwareIoPrediction.exportMeasurements
  constructor
  · intro same before ioState after split fresh
    have member := (registry.entries _ _).mpr ⟨ioState,⟨before,after,split,fresh⟩,rfl,rfl⟩
    have exported := same.read _ (List.mem_flatMap.mpr ⟨_,mem_indices.mpr (getThreadsInIO_lt positive ioState),
      List.mem_map.mpr ⟨_,member,rfl⟩⟩)
    exact (entry_read_iff filenamePrefix ioState).mp exported
  · intro traced
    constructor
    · intro entry member
      obtain ⟨threads,-,inside⟩ := List.mem_flatMap.mp member
      obtain ⟨found,inMap,rfl⟩ := List.mem_map.mp inside
      obtain ⟨ioState,⟨before,after,split,fresh⟩,rfl,rfl⟩ := (registry.entries _ _).mp inMap
      exact (entry_read_iff filenamePrefix ioState).mpr (traced before ioState after split fresh)
    · have distinct := @points_nodup maxThreads Int32 (fun threads => ((StateAwareIoPrediction.lookedUp
        (some filenamePrefix) maxThreads ioStates).predictionsPerInvocationPoint threads).map Prod.fst)
        (fun threads traceHash => { threadsInIo := threads,traceHash := traceHash }) registry.distinct (fun _ _ => rfl)
        (fun _ first second same => congrArg IoState.traceHash same)
      have names := names_nodup filenamePrefix distinct fun point member traced => by
        obtain ⟨threads,-,inside⟩ := List.mem_flatMap.mp member
        obtain ⟨key,-,rfl⟩ := List.mem_map.mp inside
        rfl
      rw [List.map_flatMap] at names ⊢
      simp only [List.map_map] at names ⊢
      exact names

/-- Every predictor exports each method's measurements to the file that the method was read from, a different one for
    each, exactly if the predictor of invocation points does not register a point without a trace hash by a lookup that
    names an operation. -/
theorem sameFiles_iff (predictor : Predictor) (filenamePrefix : String) (maxNumberOfThreadsPerformingIoInParallel : UInt32)
    (ioStates : List IoState) :
    SameFiles (exportMeasurements (some filenamePrefix) maxNumberOfThreadsPerformingIoInParallel predictor ioStates
      filenamePrefix) ↔ (predictor = .stateAwareIoPrediction → 0 < maxNumberOfThreadsPerformingIoInParallel →
        Traced maxNumberOfThreadsPerformingIoInParallel ioStates) := by
  cases predictor with
  | noIoPrediction =>
    constructor
    · intro _ same
      cases same
    · intro _
      exact sameFiles_nil
  | globalIoPrediction =>
    constructor
    · intro _ same
      cases same
    · intro _
      exact sameFiles_global filenamePrefix
  | operationAwareIoPrediction =>
    constructor
    · intro _ same
      cases same
    · intro _
      exact sameFiles_operation filenamePrefix
  | stateAwareIoPrediction =>
    by_cases positive : 0 < maxNumberOfThreadsPerformingIoInParallel
    · have traced_iff := @sameFiles_stateAware_iff _ ioStates filenamePrefix positive
      constructor
      · intro same _ _
        exact traced_iff.mp same
      · intro traced
        exact traced_iff.mpr (traced rfl positive)
    · constructor
      · intro _ _ allowed
        exact absurd allowed positive
      · intro _
        have zero : maxNumberOfThreadsPerformingIoInParallel = 0 := by grind
        subst zero
        exact sameFiles_nil

/-- A file that is read while two other threads are in I/O, by a thread whose stack trace hashes to 0. -/
theorem untraced_file_lost :
    exportMeasurements (some "/data/io") 32 .stateAwareIoPrediction [⟨2,0,5⟩] "/data/io" =
        [(⟨some "/data/io_3thr_5iop.csv"⟩,"/data/io_3thr.csv")] ∧
      ¬ SameFiles (exportMeasurements (some "/data/io") 32 .stateAwareIoPrediction [⟨2,0,5⟩] "/data/io") := by
  have exported : exportMeasurements (some "/data/io") 32 .stateAwareIoPrediction [⟨2,0,5⟩] "/data/io" =
    [(⟨some "/data/io_3thr_5iop.csv"⟩,"/data/io_3thr.csv")] := by decide +kernel
  refine ⟨exported,fun same => ?_⟩
  have read := same.read (⟨some "/data/io_3thr_5iop.csv"⟩,"/data/io_3thr.csv") (by simp [exported])
  exact absurd read (by decide)

end Vexjine.PredictionFiles
