import Vexjine.Floats
import Vexjine.MethodEvents

/-!
# Reports of the measured methods

Reports are written from measures that they read through pointers, in tables of all
methods and in trees of stack traces. A measure that prints its mean times subtracts
its I/O time from its CPU time, in its own counters.
-/

namespace Vexjine.Reports
open Vexjine.Floats Vexjine.MethodLogs Vexjine.MethodEvents

/-! ## Measures -/

/-- I/O is also added as local time, which increases the CPU time. -/
def compensate (times : Times) : Times := Function.update times .cpu (max (times .cpu - times .ioWait) 0)

/-- What printing the mean times of a measure leaves in its counters. -/
def printMeansInMSec (measure : PerformanceMeasure) : PerformanceMeasure :=
  { measure with exclusive := compensate measure.exclusive,inclusive := compensate measure.inclusive }

def isTheInstrumentationProfilingMethod (measure : PerformanceMeasure) : Bool := measure.methodId = 50

/-- A quotient of `double` values, which is infinite for no samples. -/
def getMean (measure : PerformanceMeasure) (metric : Int) : WithBot (WithTop ℚ) :=
  if metric = 0 then ((0 : ℚ) : WithTop ℚ)
  else if measure.samples = 0 then if 0 < metric then (⊤ : WithTop ℚ) else ⊥
  else (toDouble (toDouble metric / measure.samples) : WithTop ℚ)

def compare_PerformanceMeasure (first second : PerformanceMeasure) : Bool :=
  getMean second (second.inclusive .estimatedRealTime) < getMean first (first.inclusive .estimatedRealTime)

def compare_PerformanceMeasureExclusiveTimes (first second : PerformanceMeasure) : Bool :=
  second.exclusive .cpu < first.exclusive .cpu

def compare_PerformanceMeasureInvocations (first second : PerformanceMeasure) : Bool := second.samples < first.samples

def compare_PerformanceMeasureTotalTime (first second : PerformanceMeasure) : Bool :=
  second.inclusive .cpu < first.inclusive .cpu

/-! ## Vectors of measures -/

/-- A vector of pointers to measures, each with the vector of its submethods; one that is `NULL` is empty here. -/
inductive SubmethodsMeasures
  | nil
  | cons (measure : Nat) (subMethods rest : SubmethodsMeasures)

/-- The counters behind the pointers. -/
abbrev Memory := Nat → PerformanceMeasure

/-- What a report shows of a measure, with the pointer to it. -/
abbrev Shown := Nat × PerformanceMeasure

namespace SubmethodsMeasures

/-- The entries of a list, none of which has submethods. -/
def ofList : List Nat → SubmethodsMeasures
  | [] => nil
  | measure :: rest => cons measure nil (ofList rest)

def roots : SubmethodsMeasures → List Nat
  | nil => []
  | cons measure _ rest => measure :: rest.roots

/-- The step of sorting a vector by `compare_PerformanceMeasureTotalTime`. -/
def insertSorted (memory : Memory) (measure : Nat) (subMethods : SubmethodsMeasures) : SubmethodsMeasures → SubmethodsMeasures
  | nil => cons measure subMethods nil
  | cons first others rest =>
    if compare_PerformanceMeasureTotalTime (memory first) (memory measure) then
      cons first others (insertSorted memory measure subMethods rest)
    else cons measure subMethods (cons first others rest)

/-- `sortSubmethodsAndGetSamples`. -/
def sortSubmethods (memory : Memory) : SubmethodsMeasures → SubmethodsMeasures
  | nil => nil
  | cons measure subMethods rest =>
    insertSorted memory measure (sortSubmethods memory subMethods) (sortSubmethods memory rest)

/-- The loop over a table's lines, and `outputStackTraceLevel`, which leaves out what is called by a method that
    it leaves out. Shares of times are computed before the mean times are printed. -/
def outputLevel (isShown : PerformanceMeasure → Bool) : SubmethodsMeasures → Memory → Memory × List Shown
  | nil, memory => (memory,[])
  | cons measure subMethods rest, memory =>
    if isShown (memory measure) then
      let printed := Function.update memory measure (printMeansInMSec (memory measure))
      let below := outputLevel isShown subMethods printed
      let after := outputLevel isShown rest below.1
      (after.1,(measure,memory measure) :: (measure,printed measure) :: (below.2 ++ after.2))
    else outputLevel isShown rest memory

/-- No mean times are shown in a browser. -/
def toHTML (isShown : PerformanceMeasure → Bool) (memory : Memory) : SubmethodsMeasures → List Shown
  | nil => []
  | cons measure subMethods rest =>
    if isShown (memory measure) then
      (measure,memory measure) :: (toHTML isShown memory subMethods ++ toHTML isShown memory rest)
    else toHTML isShown memory rest

/-- The measures that a report prints, if no counter changes. -/
def Prints (isShown : PerformanceMeasure → Bool) (memory : Memory) (measure : Nat) : SubmethodsMeasures → Prop
  | nil => False
  | cons first subMethods rest =>
    isShown (memory first) = true ∧ (measure = first ∨ subMethods.Prints isShown memory measure) ∨
      rest.Prints isShown memory measure

end SubmethodsMeasures
open SubmethodsMeasures

/-! ## Loggers -/

structure Logger where
  /-- Whether it is a `StackTraceLogger`. -/
  stackTraces : Bool
  memory : Memory
  measures : List Nat := []
  measuresRoots : SubmethodsMeasures := .nil
  prunePercentage : ℚ := 0

/-- With the files that can be opened. -/
inductive Report
  | vtf (opened htmlOpened : Bool)
  | hprof (opened : Bool)
  | methods (opened : Bool)
  deriving DecidableEq

namespace Logger
variable (logger : Logger)

def sorted (compare : PerformanceMeasure → PerformanceMeasure → Bool) (measures : List Nat) : List Nat :=
  measures.mergeSort fun first second => !compare (logger.memory second) (logger.memory first)

/-- The CPU time of the roots. -/
def serializedExecutionTime : Int := (logger.measuresRoots.roots.map fun root => (logger.memory root).inclusive .cpu).sum

/-- A share of no time is infinite or not a number. -/
def exceedsPercentage (measure : PerformanceMeasure) : Bool :=
  if logger.serializedExecutionTime = 0 then 0 < measure.inclusive .cpu
  else logger.prunePercentage <
    toDouble (100 * toDouble (toDouble (measure.inclusive .cpu) / toDouble logger.serializedExecutionTime))

/-- Of an `EventLogger`. -/
def writeTable (opened : Bool) : Logger × List Shown :=
  if opened then
    let outputList := logger.sorted compare_PerformanceMeasureExclusiveTimes
      (logger.sorted compare_PerformanceMeasure logger.measures)
    let output := outputLevel (!isTheInstrumentationProfilingMethod ·) (ofList outputList) logger.memory
    ({ logger with memory := output.1 },output.2)
  else (logger,[])

/-- All vectors are sorted in place. -/
def sortMeasures : Logger := { logger with measuresRoots := logger.measuresRoots.sortSubmethods logger.memory }

/-- Of a `StackTraceLogger`. -/
def writeStackTraces (opened htmlOpened : Bool) : Logger × List Shown :=
  let sorting := logger.sortMeasures
  if opened then
    let output := outputLevel sorting.exceedsPercentage sorting.measuresRoots sorting.memory
    let html := if htmlOpened then toHTML sorting.exceedsPercentage output.1 sorting.measuresRoots else []
    ({ sorting with memory := output.1 },output.2 ++ html)
  else (sorting,[])

def writeDataVTFStyle (opened htmlOpened : Bool) : Logger × List Shown :=
  if logger.stackTraces then logger.writeStackTraces opened htmlOpened else logger.writeTable opened

def writeDataHprofStyle (opened : Bool) : Logger × List Shown :=
  (logger,if opened then
    (logger.sorted compare_PerformanceMeasureExclusiveTimes logger.measures).map fun measure =>
      (measure,logger.memory measure)
    else [])

def writeMethods (opened : Bool) : Logger × List Shown :=
  (logger,if opened then
    (logger.sorted compare_PerformanceMeasureInvocations logger.measures).map fun measure =>
      (measure,logger.memory measure)
    else [])

def write : Report → Logger × List Shown
  | .vtf opened htmlOpened => logger.writeDataVTFStyle opened htmlOpened
  | .hprof opened => logger.writeDataHprofStyle opened
  | .methods opened => logger.writeMethods opened

/-- The measures whose mean times a report prints. -/
def Prints : Report → Nat → Prop
  | .vtf opened _, measure => opened = true ∧
    if logger.stackTraces then logger.measuresRoots.Prints logger.exceedsPercentage logger.memory measure
    else measure ∈ logger.measures ∧ isTheInstrumentationProfilingMethod (logger.memory measure) = false
  | .hprof _, _ | .methods _, _ => False

end Logger

def writeAll (logger : Logger) : List Report → Logger × List Shown
  | [] => (logger,[])
  | report :: rest =>
    let written := logger.write report
    let later := writeAll written.1 rest
    (later.1,written.2 ++ later.2)

/-- No counter ever changes, and all reports show the counters as they were at first. -/
structure Agree (logger : Logger) (reports : List Report) : Prop where
  unchanged : ∀ before, before <+: reports → (writeAll logger before).1.memory = logger.memory
  shown : ∀ line ∈ (writeAll logger reports).2, line.2 = logger.memory line.1

/-- The CPU time has no I/O time in it. -/
def Compensated (times : Times) : Prop := 0 ≤ times .cpu ∧ (times .ioWait = 0 ∨ times .cpu = 0 ∧ 0 < times .ioWait)

/-! ## Printing a measure again and again -/

private theorem compensate_eq_self_iff (times : Times) : compensate times = times ↔ Compensated times := by
  rw [compensate,Function.update_eq_self_iff,Compensated]
  omega

theorem printMeansInMSec_eq_self_iff (measure : PerformanceMeasure) :
    printMeansInMSec measure = measure ↔ Compensated measure.exclusive ∧ Compensated measure.inclusive := by
  rw [← compensate_eq_self_iff,← compensate_eq_self_iff]
  constructor
  · intro same
    exact ⟨congrArg PerformanceMeasure.exclusive same,congrArg PerformanceMeasure.inclusive same⟩
  · rintro ⟨exclusive,inclusive⟩
    rw [printMeansInMSec,exclusive,inclusive]

private theorem cpu_iterate (count : Nat) (times : Times) :
    compensate^[count] times .cpu = (fun cpu => max (cpu - times .ioWait) 0)^[count] (times .cpu) := by
  induction count generalizing times with
  | zero => rfl
  | succ count ih =>
    rw [Function.iterate_succ_apply,Function.iterate_succ_apply,ih]
    rfl

/-- The CPU time moves in one direction, so that it never comes back. -/
private theorem compensate_of_iterate {count : Nat} (positive : 0 < count) {times : Times}
    (back : compensate^[count] times = times) : compensate times = times := by
  have monotone : Monotone fun cpu : Int => max (cpu - times .ioWait) 0 := by
    intro small large order
    exact max_le_max_right 0 (Int.sub_le_sub_right order _)
  have returned : (fun cpu => max (cpu - times .ioWait) 0)^[count] (times .cpu) = id^[count] (times .cpu) := by
    rw [← cpu_iterate,back,Function.iterate_id,id]
  have fixed := (Function.Commute.id_right.iterate_pos_eq_iff_map_eq monotone strictMono_id positive).mp returned
  exact Function.update_eq_self_iff.mpr fixed

private theorem printMeansInMSec_of_iterate {count : Nat} (positive : 0 < count) {measure : PerformanceMeasure}
    (back : printMeansInMSec^[count] measure = measure) : printMeansInMSec measure = measure := by
  have exclusive : Function.Semiconj PerformanceMeasure.exclusive printMeansInMSec compensate := fun _ => rfl
  have inclusive : Function.Semiconj PerformanceMeasure.inclusive printMeansInMSec compensate := fun _ => rfl
  have backExclusive : compensate^[count] measure.exclusive = measure.exclusive := by
    rw [← (exclusive.iterate_right count).eq,back]
  have backInclusive : compensate^[count] measure.inclusive = measure.inclusive := by
    rw [← (inclusive.iterate_right count).eq,back]
  rw [printMeansInMSec,compensate_of_iterate positive backExclusive,compensate_of_iterate positive backInclusive]

/-- Each measure was printed some number of times. -/
private def Printed (memory later : Memory) : Prop :=
  ∀ measure, ∃ count, later measure = printMeansInMSec^[count] (memory measure)

private theorem Printed.trans {memory later last : Memory} (first : Printed memory later) (second : Printed later last) :
    Printed memory last := by
  intro measure
  obtain ⟨count,before⟩ := first measure
  obtain ⟨more,after⟩ := second measure
  exact ⟨more + count,by rw [after,before,Function.iterate_add_apply]⟩

private theorem Printed.antisymm {memory later : Memory} (first : Printed memory later) (second : Printed later memory) :
    later = memory := by
  funext measure
  obtain ⟨count,before⟩ := first measure
  obtain ⟨more,after⟩ := second measure
  rcases Nat.eq_zero_or_pos count with none | positive
  · rw [before,none]
    rfl
  · have back : printMeansInMSec^[more + count] (memory measure) = memory measure := by
      rw [Function.iterate_add_apply,← before,← after]
    rw [before,Function.iterate_fixed (printMeansInMSec_of_iterate (by omega) back)]

private theorem printed_update (memory : Memory) (measure : Nat) :
    Printed memory (Function.update memory measure (printMeansInMSec (memory measure))) := by
  intro other
  by_cases same : other = measure
  · subst same
    exact ⟨1,Function.update_self ..⟩
  · exact ⟨0,Function.update_of_ne same ..⟩

private theorem printed_outputLevel (isShown : PerformanceMeasure → Bool) (measures : SubmethodsMeasures)
    (memory : Memory) : Printed memory (outputLevel isShown measures memory).1 := by
  induction measures generalizing memory with
  | nil => exact fun measure => ⟨0,rfl⟩
  | cons measure subMethods rest below after =>
    rw [outputLevel]
    split
    · exact ((printed_update memory measure).trans (below _)).trans (after _)
    · exact after memory

/-! ## Trees -/

section Trees
variable {isShown : PerformanceMeasure → Bool} {memory : Memory}

/-- Printing changes no counter if and only if it changes none of any measure that is printed. -/
theorem outputLevel_memory_iff (measures : SubmethodsMeasures) :
    (outputLevel isShown measures memory).1 = memory ↔
      ∀ measure, measures.Prints isShown memory measure → printMeansInMSec (memory measure) = memory measure := by
  induction measures with
  | nil => simp [outputLevel,Prints]
  | cons measure subMethods rest below after =>
    rw [outputLevel]
    split
    case isTrue shown =>
      constructor
      · intro same
        have last := printed_outputLevel isShown rest (outputLevel isShown subMethods
          (Function.update memory measure (printMeansInMSec (memory measure)))).1
        rw [same] at last
        -- no counter was changed on the way, since none ever changes back
        have first := (printed_update memory measure).antisymm ((printed_outputLevel isShown subMethods _).trans last)
        simp only [first] at same last
        have second := (printed_outputLevel isShown subMethods memory).antisymm last
        rw [second] at same
        rintro other (⟨-,rfl | called⟩ | later)
        · exact Function.update_eq_self_iff.mp first
        · exact below.mp second other called
        · exact after.mp same other later
      · intro fixed
        have first : Function.update memory measure (printMeansInMSec (memory measure)) = memory :=
          Function.update_eq_self_iff.mpr (fixed measure (.inl ⟨shown,.inl rfl⟩))
        have second := below.mpr fun other called => fixed other (.inl ⟨shown,.inr called⟩)
        simp only [first,second]
        exact after.mpr fun other later => fixed other (.inr later)
    case isFalse hidden =>
      rw [after]
      exact forall_congr' fun other => by simp [Prints,hidden]

private theorem outputLevel_shown (measures : SubmethodsMeasures)
    (fixed : ∀ measure, measures.Prints isShown memory measure → printMeansInMSec (memory measure) = memory measure) :
    ∀ line ∈ (outputLevel isShown measures memory).2, line.2 = memory line.1 := by
  induction measures with
  | nil => simp [outputLevel]
  | cons measure subMethods rest below after =>
    rw [outputLevel]
    split
    case isTrue shown =>
      have first : Function.update memory measure (printMeansInMSec (memory measure)) = memory :=
        Function.update_eq_self_iff.mpr (fixed measure (.inl ⟨shown,.inl rfl⟩))
      have called (other : Nat) (printed : subMethods.Prints isShown memory other) := fixed other (.inl ⟨shown,.inr printed⟩)
      have second := (outputLevel_memory_iff subMethods).mpr called
      simp only [first,second,List.mem_cons,List.mem_append]
      rintro line (rfl | rfl | inside | later)
      · rfl
      · rfl
      · exact below called line inside
      · exact after (fun other printed => fixed other (.inr printed)) line later
    case isFalse hidden => exact after fun other printed => fixed other (.inr printed)

private theorem toHTML_shown (measures : SubmethodsMeasures) :
    ∀ line ∈ toHTML isShown memory measures, line.2 = memory line.1 := by
  induction measures with
  | nil => simp [toHTML]
  | cons measure subMethods rest below after =>
    rw [toHTML]
    split
    · simp only [List.mem_cons,List.mem_append]
      rintro line (rfl | inside | later)
      · rfl
      · exact below line inside
      · exact after line later
    · exact after

private theorem prints_insert (sorting : Memory) (other measure : Nat) (subMethods rest : SubmethodsMeasures) :
    (insertSorted sorting measure subMethods rest).Prints isShown memory other ↔
      (cons measure subMethods rest).Prints isShown memory other := by
  induction rest with
  | nil => rfl
  | cons first others rest _ after =>
    rw [insertSorted]
    split
    · simp only [Prints] at after ⊢
      rw [after]
      tauto
    · rfl

private theorem prints_sortSubmethods (sorting : Memory) (other : Nat) (measures : SubmethodsMeasures) :
    (measures.sortSubmethods sorting).Prints isShown memory other ↔ measures.Prints isShown memory other := by
  induction measures with
  | nil => rfl
  | cons measure subMethods rest below after => simp only [sortSubmethods,prints_insert,Prints,below,after]

private theorem roots_insert (sorting : Memory) (measure : Nat) (subMethods rest : SubmethodsMeasures) :
    (insertSorted sorting measure subMethods rest).roots.Perm (measure :: rest.roots) := by
  induction rest with
  | nil => rfl
  | cons first others rest _ after =>
    rw [insertSorted]
    split
    · exact (after.cons first).trans (List.Perm.swap ..)
    · rfl

private theorem roots_sortSubmethods (sorting : Memory) (measures : SubmethodsMeasures) :
    (measures.sortSubmethods sorting).roots.Perm measures.roots := by
  induction measures with
  | nil => rfl
  | cons measure subMethods rest _ after => exact (roots_insert ..).trans (after.cons measure)

private theorem prints_ofList (measures : List Nat) (measure : Nat) :
    (ofList measures).Prints isShown memory measure ↔ measure ∈ measures ∧ isShown (memory measure) = true := by
  induction measures with
  | nil => simp [ofList,Prints]
  | cons first rest ih =>
    simp only [ofList,Prints,ih,or_false,List.mem_cons]
    constructor
    · rintro (⟨shown,rfl⟩ | ⟨later,shown⟩)
      · exact ⟨.inl rfl,shown⟩
      · exact ⟨.inr later,shown⟩
    · rintro ⟨rfl | later,shown⟩
      · exact .inl ⟨shown,rfl⟩
      · exact .inr ⟨later,shown⟩

end Trees

/-! ## Reports -/

section Loggers
variable {logger : Logger}

private theorem serializedExecutionTime_sortMeasures :
    logger.sortMeasures.serializedExecutionTime = logger.serializedExecutionTime :=
  ((roots_sortSubmethods logger.memory logger.measuresRoots).map _).sum_eq

private theorem exceedsPercentage_sortMeasures : logger.sortMeasures.exceedsPercentage = logger.exceedsPercentage := by
  funext measure
  simp only [Logger.exceedsPercentage,serializedExecutionTime_sortMeasures]
  rfl

private theorem prints_sortMeasures (report : Report) (measure : Nat) :
    logger.sortMeasures.Prints report measure ↔ logger.Prints report measure := by
  cases report with
  | vtf opened htmlOpened =>
    rw [Logger.Prints,exceedsPercentage_sortMeasures,Logger.Prints]
    refine and_congr_right fun _ => ?_
    change (if logger.stackTraces = true then _ else _) ↔ _
    split
    · exact prints_sortSubmethods ..
    · rfl
  | hprof opened => rfl
  | methods opened => rfl

private theorem with_memory {memory : Memory} (same : memory = logger.memory) : { logger with memory := memory } = logger := by
  subst same
  rfl

private theorem write_stackTraces (traced : logger.stackTraces = true) (htmlOpened : Bool) :
    logger.write (.vtf true htmlOpened) = ({ logger.sortMeasures with
      memory := (outputLevel logger.exceedsPercentage logger.sortMeasures.measuresRoots logger.memory).1 },
      (outputLevel logger.exceedsPercentage logger.sortMeasures.measuresRoots logger.memory).2 ++
        if htmlOpened then toHTML logger.exceedsPercentage
          (outputLevel logger.exceedsPercentage logger.sortMeasures.measuresRoots logger.memory).1
          logger.sortMeasures.measuresRoots
        else []) := by
  simp only [Logger.write,Logger.writeDataVTFStyle,if_pos traced,Logger.writeStackTraces,if_true,
    exceedsPercentage_sortMeasures]
  rfl

private theorem write_table (table : ¬ logger.stackTraces = true) (htmlOpened : Bool) :
    logger.write (.vtf true htmlOpened) = logger.writeTable true := if_neg table

private theorem write_closed (htmlOpened : Bool) :
    logger.write (.vtf false htmlOpened) = (if logger.stackTraces then logger.sortMeasures else logger,[]) := by
  simp only [Logger.write,Logger.writeDataVTFStyle,Logger.writeStackTraces,Logger.writeTable]
  split <;> rfl

/-- The measures of a table's lines. -/
private theorem prints_outputList (measure : Nat) :
    (ofList (logger.sorted compare_PerformanceMeasureExclusiveTimes
        (logger.sorted compare_PerformanceMeasure logger.measures))).Prints (!isTheInstrumentationProfilingMethod ·)
          logger.memory measure ↔
      measure ∈ logger.measures ∧ isTheInstrumentationProfilingMethod (logger.memory measure) = false := by
  rw [prints_ofList,Logger.sorted,Logger.sorted,List.mem_mergeSort,List.mem_mergeSort,Bool.not_eq_true']

/-- A report changes no counter if and only if it changes none of any measure that it prints. -/
theorem write_memory_iff (report : Report) :
    (logger.write report).1.memory = logger.memory ↔
      ∀ measure, logger.Prints report measure → printMeansInMSec (logger.memory measure) = logger.memory measure := by
  cases report with
  | vtf opened htmlOpened =>
    cases opened with
    | false =>
      rw [write_closed]
      constructor
      · rintro - measure ⟨opened,-⟩
        contradiction
      · intro
        split <;> rfl
    | true =>
      by_cases traced : logger.stackTraces = true
      · rw [write_stackTraces traced]
        refine (outputLevel_memory_iff _).trans (forall_congr' fun measure => imp_congr_left ?_)
        rw [Logger.sortMeasures,prints_sortSubmethods,Logger.Prints,if_pos traced,eq_self,true_and]
      · rw [write_table traced]
        refine (outputLevel_memory_iff _).trans (forall_congr' fun measure => imp_congr_left ?_)
        rw [prints_outputList,Logger.Prints,if_neg traced,eq_self,true_and]
  | hprof opened => exact iff_of_true rfl fun measure printed => printed.elim
  | methods opened => exact iff_of_true rfl fun measure printed => printed.elim

private theorem write_shown (report : Report) (same : (logger.write report).1.memory = logger.memory) :
    ∀ line ∈ (logger.write report).2, line.2 = logger.memory line.1 := by
  have listed (opened : Bool) (measures : List Nat) :
      ∀ line ∈ (if opened then measures.map fun measure => (measure,logger.memory measure) else []),
        line.2 = logger.memory line.1 := by
    cases opened with
    | false => simp
    | true => simp
  cases report with
  | vtf opened htmlOpened =>
    cases opened with
    | false =>
      rw [write_closed]
      simp
    | true =>
      by_cases traced : logger.stackTraces = true
      · rw [write_stackTraces traced] at same ⊢
        have unchanged : (outputLevel logger.exceedsPercentage logger.sortMeasures.measuresRoots logger.memory).1 =
          logger.memory := same
        intro line shown
        rw [unchanged] at shown
        rcases List.mem_append.mp shown with inText | inBrowser
        · exact outputLevel_shown _ ((outputLevel_memory_iff _).mp unchanged) line inText
        · cases htmlOpened with
          | false => simp at inBrowser
          | true => exact toHTML_shown _ line inBrowser
      · rw [write_table traced] at same ⊢
        exact outputLevel_shown _ ((outputLevel_memory_iff _).mp same)
  | hprof opened => exact listed opened _
  | methods opened => exact listed opened _

/-- At most, vectors are sorted. -/
private theorem write_logger (report : Report) (same : (logger.write report).1.memory = logger.memory) :
    (logger.write report).1 = logger ∨ (logger.write report).1 = logger.sortMeasures := by
  cases report with
  | vtf opened htmlOpened =>
    cases opened with
    | false =>
      rw [write_closed]
      split
      · exact .inr rfl
      · exact .inl rfl
    | true =>
      by_cases traced : logger.stackTraces = true
      · rw [write_stackTraces traced] at same ⊢
        exact .inr (with_memory same)
      · rw [write_table traced] at same ⊢
        exact .inl (with_memory same)
  | hprof opened => exact .inl rfl
  | methods opened => exact .inl rfl

private theorem prints_write {report : Report} (same : (logger.write report).1.memory = logger.memory) (later : Report)
    (measure : Nat) : (logger.write report).1.Prints later measure ↔ logger.Prints later measure := by
  rcases write_logger report same with rest | sorting
  · rw [rest]
  · rw [sorting,prints_sortMeasures]

private theorem agree_cons {report : Report} (same : (logger.write report).1.memory = logger.memory)
    (rest : List Report) : Agree logger (report :: rest) ↔ Agree (logger.write report).1 rest := by
  constructor
  · rintro ⟨unchanged,shown⟩
    constructor
    · intro before inside
      rw [same]
      exact unchanged (report :: before) (List.prefix_cons_inj report |>.mpr inside)
    · intro line later
      rw [same]
      exact shown line (List.mem_append_right _ later)
  · rintro ⟨unchanged,shown⟩
    rw [same] at unchanged shown
    constructor
    · intro before inside
      cases before with
      | nil => rfl
      | cons first others =>
        obtain ⟨rfl,within⟩ := List.cons_prefix_cons.mp inside
        exact unchanged others within
    · intro line among
      rcases List.mem_append.mp among with now | later
      · exact write_shown report same line now
      · exact shown line later

end Loggers

/-- In every CSV file that is opened, the measures that it prints have no I/O time in their CPU times, with or without
    the methods that they call. -/
theorem reports_agree_iff (logger : Logger) (reports : List Report) :
    Agree logger reports ↔ ∀ report ∈ reports, ∀ measure, logger.Prints report measure →
      Compensated (logger.memory measure).exclusive ∧ Compensated (logger.memory measure).inclusive := by
  simp only [← printMeansInMSec_eq_self_iff]
  induction reports generalizing logger with
  | nil =>
    refine iff_of_true ⟨?_,?_⟩ ?_
    · intro before inside
      rw [List.prefix_nil.mp inside]
      rfl
    · simp [writeAll]
    · simp
  | cons report rest ih =>
    rw [List.forall_mem_cons,← write_memory_iff]
    constructor
    · intro agree
      have same : (logger.write report).1.memory = logger.memory := agree.unchanged [report] (by simp)
      refine ⟨same,?_⟩
      have later := (ih _).mp ((agree_cons same rest).mp agree)
      intro report' member measure printed
      have fixed := later report' member measure ((prints_write same report' measure).mpr printed)
      rwa [same] at fixed
    · rintro ⟨same,later⟩
      refine (agree_cons same rest).mpr ((ih _).mpr ?_)
      intro report' member measure printed
      rw [same]
      exact later report' member measure ((prints_write same report' measure).mp printed)

/-- One method, with 3 ns of I/O in its CPU time of 10 ns. -/
def ioLogger : Logger where
  stackTraces := false
  memory := fun _ =>
    { methodId := 1
      samples := 1
      exclusive := fun clock => if clock = .ioWait then 3 else 10
      inclusive := fun clock => if clock = .ioWait then 3 else 10 }
  measures := [0]

/-- Two CSV files of the same run disagree. -/
theorem csv_twice_disagrees : ¬ Agree ioLogger [.vtf true true,.vtf true true] := by
  rw [reports_agree_iff]
  intro compensated
  have printed := compensated (.vtf true true) (by simp) 0 ⟨rfl,List.mem_singleton.mpr rfl,rfl⟩
  exact absurd printed.1.2 (by decide)

end Vexjine.Reports
