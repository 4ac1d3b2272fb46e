import Vexjine.Documents
import Vexjine.Floats
import Vexjine.JmtProbabilities
import Vexjine.MethodEvents

/-!
# Policies for the invalidation of methods

A policy is described by a text: a number of samples, and after a colon a percentage or
a time. The number is copied into a buffer on the stack before it is read. Each exit of
a method asks the policy for the measure that the exit leads to, if there is one.
-/

namespace Vexjine.InvalidationPolicies
open Vexjine.Floats Vexjine.DecimalLines Vexjine.JmtProbabilities Vexjine.MethodEvents Vexjine.MethodLogs

abbrev VexThreadState := MethodEvents.VexThreadState

abbrev Event := MethodEvents.Event

/-! ## Texts -/

/-- The bytes before the terminator of a string. -/
abbrev CString := {text : List Char // ∀ c ∈ text, c ≠ '\x00' ∧ c.toNat < 256}

/-- An array on the stack, with what was there before. -/
abbrev Buffer := {bytes : List Char // bytes.length = 32}

def withoutSign (text : List Char) : List Char := if text.head? ∈ [some '-',some '+'] then text.tail else text

/-- Behind blanks and a sign. -/
def magnitude (text : List Char) : List Char := withoutSign (text.dropWhile isspace)

/-- The number that a text begins with, and zero if it begins with none. -/
def number (text : List Char) : Int :=
  if (text.dropWhile isspace).head? = some '-' then -digits (magnitude text) else digits (magnitude text)

/-- What is left behind the digits, the first of which ends the number. -/
def behindNumber (text : List Char) : List Char := (magnitude text).dropWhile Char.isDigit

/-- `atoi` of an array, which reads behind it if nothing in it ends the number. -/
def atoiWithin (bytes : List Char) : Option Int := if behindNumber bytes = [] then none else some (atoi bytes)

/-! ## Policies -/

inductive Kind
  | sampleBased
  | relativePercentage (invalidationAggregationPercentage : ℚ)
  | absoluteTime (minimumAcceptableTime : Int)
  deriving DecidableEq

structure ProfilingInvalidationPolicy where
  samplesLimit : BitVec 32
  kind : Kind
  deriving DecidableEq

def delimiterPosition (text : CString) : Nat := text.val.findIdx (· = ':')

/-- The part that is copied into the buffer. -/
def firstInfo (text : CString) : List Char := text.val.take (delimiterPosition text)

def secondInfo (text : CString) : List Char := text.val.drop (delimiterPosition text + 1)

/-- None if memory outside of the buffer is read or written. -/
def registerInvalidationPolicy (samplesLimit : Buffer) (text : CString) : Option ProfilingInvalidationPolicy :=
  if delimiterPosition text = text.val.length then
    some { samplesLimit := BitVec.ofInt 32 (atoi text.val),kind := .sampleBased }
  else if 32 < delimiterPosition text then none
  else
    (atoiWithin (firstInfo text ++ samplesLimit.val.drop (delimiterPosition text))).map fun maxSamples =>
      let minimumProfiledTime := atoi (secondInfo text)
      { samplesLimit := BitVec.ofInt 32 maxSamples
        kind := if minimumProfiledTime = 0 then
            .relativePercentage (toFloat (atof toDouble (String.ofList (secondInfo text))))
          else .absoluteTime minimumProfiledTime }

def getMethodInvocations (measure : PerformanceMeasure) : BitVec 32 := BitVec.ofNat 32 measure.samples

/-- Too many samples, and not the method that instrumentation delays are profiled with. -/
def exceedsLimit (samplesLimit : BitVec 32) (measure : PerformanceMeasure) : Bool :=
  samplesLimit.toNat < (getMethodInvocations measure).toNat ∧ measure.methodId ≠ 50

/-- None if a null pointer is followed, or the number of samples divided by zero. -/
def ProfilingInvalidationPolicy.keepOnProfiling (policy : ProfilingInvalidationPolicy) (globalTime : Int)
    (pm : Option PerformanceMeasure) : Option Bool :=
  match policy.kind with
  | .sampleBased => some (pm.all fun measure => !exceedsLimit policy.samplesLimit measure)
  | .relativePercentage percentage => some (pm.all fun measure => !exceedsLimit policy.samplesLimit measure ||
      !decide (toFloat (measure.inclusive .estimatedRealTime) < toFloat (percentage * toFloat globalTime)))
  | .absoluteTime minimumAcceptableTime => pm.bind fun measure =>
    if getMethodInvocations measure = 0 then some true
    else if policy.samplesLimit = 0 then none
    else
      let ratio := (getMethodInvocations measure).toNat / policy.samplesLimit.toNat
      some (if 0 < ratio ∧ measure.methodId ≠ 50 then
        !decide (measure.inclusive .estimatedRealTime < ratio * minimumAcceptableTime) else true)

/-! ## Exits -/

/-- The measure of the exiting method, which is the one of the current record's node in a tree of calls. -/
def getExitingMethodPerformanceMeasure (thread : VexThreadState) (methodId : Int) (next : VexThreadState) :
    Option PerformanceMeasure :=
  match next.stackTrace with
  | none => next.measures.find? (·.methodId = methodId)
  | some trace => thread.exitingNode.bind fun node => trace.nodes[node]?.map (·.measure)

/-- With the measure that has the sample of the exit. -/
def onVexMethodExit (thread : VexThreadState) (methodId : Int) (clocks : Times) :
    VexThreadState × Option PerformanceMeasure :=
  let exited := thread.logMethodExit methodId clocks
  (exited.1,exited.2.bind fun _ => getExitingMethodPerformanceMeasure thread methodId exited.1)

/-- The thread and whether the method is invalidated. -/
def beforeMethodExit (invalidationPolicy : Option ProfilingInvalidationPolicy) (globalTime : Int) (thread : VexThreadState)
    (methodId : Int) (clocks : Times) : Option (VexThreadState × Bool) :=
  let exited := onVexMethodExit thread methodId clocks
  match invalidationPolicy with
  | none => some (exited.1,false)
  | some policy => (policy.keepOnProfiling globalTime exited.2).map fun keeps => (exited.1,!keeps)

/-! ## What the text gives -/

def describedKind (text : CString) : Kind :=
  if ':' ∈ text.val then
    if number (secondInfo text) = 0 then .relativePercentage (toFloat (atof toDouble (String.ofList (secondInfo text))))
    else .absoluteTime (number (secondInfo text))
  else .sampleBased

/-- Whatever the buffer held before, the policy is that of the text, and every exit of the method asks it safely. -/
def Safe (text : CString) (globalTime : Int) (thread : VexThreadState) (methodId : Int) (clocks : Times) : Prop :=
  ∀ samplesLimit : Buffer, ∃ policy, registerInvalidationPolicy samplesLimit text = some policy ∧
    policy.samplesLimit.toNat = number (firstInfo text) ∧ policy.kind = describedKind text ∧
      (beforeMethodExit (some policy) globalTime thread methodId clocks).isSome

/-- Both numbers fit; the first part fits into the buffer, and its number ends before a colon. -/
def Readable (text : CString) : Prop :=
  0 ≤ number (firstInfo text) ∧ number (firstInfo text) < 2 ^ 32 ∧
    (':' ∈ text.val → (firstInfo text).length ≤ 32 ∧ behindNumber (firstInfo text) ≠ [] ∧
      -2 ^ 31 ≤ number (secondInfo text) ∧ number (secondInfo text) < 2 ^ 31)

/-- The samples of the measure that the exit adds one to. -/
def samplesBefore (thread : VexThreadState) (methodId : Int) : Nat :=
  match thread.stackTrace with
  | none => (thread.measures.find? (·.methodId = methodId)).elim 0 (·.samples)
  | some trace => (thread.exitingNode.bind (trace.nodes[·]?)).elim 0 (·.measure.samples)

/-- A threshold in time asks for a call to exit, and for a limit that is not zero unless the counter of the samples
    starts again. -/
def Answerable (text : CString) (thread : VexThreadState) (methodId : Int) : Prop :=
  ':' ∈ text.val → number (secondInfo text) ≠ 0 → ¬ Spurious thread methodId ∧
    (number (firstInfo text) ≠ 0 ∨ samplesBefore thread methodId % 2 ^ 32 = 2 ^ 32 - 1)

/-! ## Numbers in texts -/

private theorem atoll_eq (text : List Char) : atoll text = max (-2 ^ 63) (min (2 ^ 63 - 1) (number text)) := by
  rw [atoll,number,magnitude]
  split
  · next signed => rw [signed]; rfl
  · next signed => rw [signed]; rfl
  · next noMinus noPlus =>
    have minus : (text.dropWhile isspace).head? ≠ some '-' :=
      fun first => noMinus _ (List.eq_cons_of_mem_head? first)
    have plus : (text.dropWhile isspace).head? ≠ some '+' :=
      fun first => noPlus _ (List.eq_cons_of_mem_head? first)
    rw [if_neg minus,withoutSign,if_neg (by simp [minus,plus])]

private theorem atoi_eq {text : List Char} (least : -2 ^ 31 ≤ number text) (greatest : number text < 2 ^ 31) :
    atoi text = number text := by
  rw [atoi,atoll_eq,max_eq_right (by omega),min_eq_right (by omega)]
  exact Int.bmod_eq_of_le (by omega) (by omega)

private theorem atoi_range (text : List Char) : -2 ^ 31 ≤ atoi text ∧ atoi text < 2 ^ 31 :=
  ⟨Int.le_bmod (by decide),Int.bmod_lt (by decide)⟩

/-- The limit of a policy is the number of the text if and only if it is an `unsigned int`. -/
private theorem limit_eq_iff (text : List Char) :
    ((BitVec.ofInt 32 (atoi text)).toNat : Int) = number text ↔ 0 ≤ number text ∧ number text < 2 ^ 32 := by
  have unsigned : ((BitVec.ofInt 32 (atoi text)).toNat : Int) = (atoll text) % 2 ^ 32 := by
    rw [BitVec.toNat_ofInt,Int.toNat_of_nonneg (Int.emod_nonneg _ (by decide)),atoi]
    exact Int.bmod_emod
  rw [unsigned,atoll_eq]
  constructor
  · intro same
    omega
  · rintro ⟨nonneg,below⟩
    rw [max_eq_right (by omega),min_eq_right (by omega),Int.emod_eq_of_lt nonneg below]

private theorem magnitude_append {text : List Char} (found : text.dropWhile isspace ≠ []) (rest : List Char) :
    magnitude (text ++ rest) = magnitude text ++ rest ∧
      ((text ++ rest).dropWhile isspace).head? = (text.dropWhile isspace).head? := by
  have blanks : (text ++ rest).dropWhile isspace = text.dropWhile isspace ++ rest := by
    rw [List.dropWhile_append,if_neg (by simpa using found)]
  have same : (text.dropWhile isspace ++ rest).head? = (text.dropWhile isspace).head? := List.head?_append_of_ne_nil _ found
  rw [magnitude,magnitude,blanks,withoutSign,withoutSign,same]
  refine ⟨?_,rfl⟩
  split
  · exact List.tail_append_of_ne_nil found
  · rfl

private theorem found_of_ended {text : List Char} (ended : behindNumber text ≠ []) : text.dropWhile isspace ≠ [] := by
  intro blank
  rw [behindNumber,magnitude,blank] at ended
  exact ended rfl

/-- What comes behind the end of a number changes nothing. -/
private theorem atoiWithin_append {text : List Char} (ended : behindNumber text ≠ []) (rest : List Char) :
    atoiWithin (text ++ rest) = some (atoi text) := by
  obtain ⟨appended,sign⟩ := magnitude_append (found_of_ended ended) rest
  have behind : behindNumber (text ++ rest) ≠ [] := by
    rw [behindNumber,appended,List.dropWhile_append,if_neg (by simpa [behindNumber] using ended)]
    exact List.append_ne_nil_of_left_ne_nil ended rest
  have more : ((magnitude text).takeWhile Char.isDigit).length ≠ (magnitude text).length := by
    have lengths := congrArg List.length (@List.takeWhile_append_dropWhile _ Char.isDigit (magnitude text))
    have left := List.length_pos_of_ne_nil ended
    rw [behindNumber] at left
    rw [List.length_append] at lengths
    omega
  have same : number (text ++ rest) = number text := by
    rw [number,number,sign,appended,digits,digits,List.takeWhile_append,if_neg more]
  rw [atoiWithin,if_neg behind,atoi,atoi,atoll_eq,atoll_eq,same]

/-- Digits that the buffer held before are read as well, up to its end and behind it. -/
private theorem behindNumber_ones {text : List Char} (endless : behindNumber text = []) (count : Nat) :
    behindNumber (text ++ List.replicate count '1') = [] := by
  have ones : (List.replicate count '1').dropWhile Char.isDigit = [] := by simp
  by_cases found : text.dropWhile isspace = []
  · have same : magnitude (text ++ List.replicate count '1') = List.replicate count '1' := by
      rw [magnitude,List.dropWhile_append,if_pos (by simp [found])]
      cases count with
      | zero => rfl
      | succ count => rfl
    rw [behindNumber,same,ones]
  · rw [behindNumber,(magnitude_append found _).1,List.dropWhile_append]
    rw [behindNumber] at endless
    rw [endless,List.isEmpty_nil,if_pos rfl,ones]

/-! ## Creating a policy -/

private theorem delimiterPosition_lt_iff (text : CString) : delimiterPosition text < text.val.length ↔ ':' ∈ text.val := by
  rw [delimiterPosition,List.findIdx_lt_length]
  simp

/-- The policy that a readable text describes. -/
private theorem register_of_readable {text : CString} (readable : Readable text) (samplesLimit : Buffer) :
    ∃ policy, registerInvalidationPolicy samplesLimit text = some policy ∧
      policy.samplesLimit.toNat = number (firstInfo text) ∧ policy.kind = describedKind text := by
  obtain ⟨nonneg,below,divided⟩ := readable
  have limit := (limit_eq_iff (firstInfo text)).mpr ⟨nonneg,below⟩
  by_cases colon : ':' ∈ text.val
  · obtain ⟨fits,ended,least,greatest⟩ := divided colon
    have position := (delimiterPosition_lt_iff text).mpr colon
    have length : (firstInfo text).length = delimiterPosition text := by
      rw [firstInfo,List.length_take]
      omega
    refine ⟨⟨BitVec.ofInt 32 (atoi (firstInfo text)),describedKind text⟩,?_,limit,rfl⟩
    rw [registerInvalidationPolicy,if_neg position.ne,if_neg (by omega),atoiWithin_append ended,Option.map_some]
    simp only [describedKind,if_pos colon,atoi_eq least greatest]
  · have whole : firstInfo text = text.val := by
      have none := (delimiterPosition_lt_iff text).not.mpr colon
      exact List.take_of_length_le (not_lt.mp none)
    have nowhere : delimiterPosition text = text.val.length := by
      have none := (delimiterPosition_lt_iff text).not.mpr colon
      have most : delimiterPosition text ≤ text.val.length := List.findIdx_le_length
      omega
    refine ⟨⟨BitVec.ofInt 32 (atoi (firstInfo text)),describedKind text⟩,?_,limit,rfl⟩
    rw [registerInvalidationPolicy,if_pos nowhere,whole]
    simp only [describedKind,if_neg colon]

/-- A buffer that held digits only shows whether a number ends in it. -/
private theorem readable_of_register {text : CString}
    (creates : ∀ samplesLimit : Buffer, ∃ policy, registerInvalidationPolicy samplesLimit text = some policy ∧
      policy.samplesLimit.toNat = number (firstInfo text) ∧ policy.kind = describedKind text) : Readable text := by
  obtain ⟨policy,created,limit,kind⟩ := creates ⟨List.replicate 32 '1',List.length_replicate⟩
  rw [registerInvalidationPolicy] at created
  by_cases colon : ':' ∈ text.val
  · have position := (delimiterPosition_lt_iff text).mpr colon
    have length : (firstInfo text).length = delimiterPosition text := by
      rw [firstInfo,List.length_take]
      omega
    rw [if_neg position.ne] at created
    split at created
    · contradiction
    · have ended : behindNumber (firstInfo text) ≠ [] := by
        intro endless
        rw [List.drop_replicate,atoiWithin,if_pos (behindNumber_ones endless _)] at created
        contradiction
      rw [atoiWithin_append ended,Option.map_some,Option.some.injEq] at created
      subst created
      obtain ⟨nonneg,below⟩ := (limit_eq_iff (firstInfo text)).mp limit
      refine ⟨nonneg,below,fun _ => ⟨by omega,ended,?_⟩⟩
      have range := atoi_range (secondInfo text)
      simp only [describedKind,if_pos colon] at kind
      split at kind <;> split at kind
      · omega
      · contradiction
      · contradiction
      · have same : atoi (secondInfo text) = number (secondInfo text) := by injection kind
        omega
  · have none := (delimiterPosition_lt_iff text).not.mpr colon
    have whole : firstInfo text = text.val := List.take_of_length_le (not_lt.mp none)
    have most : delimiterPosition text ≤ text.val.length := List.findIdx_le_length
    rw [if_pos (by omega),Option.some.injEq] at created
    subst created
    rw [whole] at limit
    obtain ⟨nonneg,below⟩ := (limit_eq_iff text.val).mp limit
    rw [← whole] at nonneg below
    exact ⟨nonneg,below,fun among => absurd among colon⟩

/-! ## The measure of an exit -/

/-- The open calls of a thread with a tree of calls have their nodes in it. -/
private def Stored (thread : VexThreadState) : Prop :=
  ∀ trace ∈ thread.stackTrace, ∀ frame ∈ thread.methodLog.frames,
    ∃ node < trace.nodes.length, frame.correspondingStackTraceMeasure = some node

private theorem lt_of_hasMethodId {trace : StackTrace} {methodId : Int} {node : Nat}
    (has : trace.hasMethodId methodId node = true) : node < trace.nodes.length := by
  by_contra outside
  rw [StackTrace.hasMethodId,List.getElem?_eq_none (not_lt.mp outside)] at has
  contradiction

private theorem current_stored (trace : StackTrace) (methodId : Int) :
    trace.nodes.length ≤ (trace.getCurrentStackTraceInfo methodId).nodes.length ∧
      ∃ node < (trace.getCurrentStackTraceInfo methodId).nodes.length,
        (trace.getCurrentStackTraceInfo methodId).currentStackTraceInfo = some node := by
  unfold StackTrace.getCurrentStackTraceInfo
  split
  · split
    · next found => exact ⟨le_rfl,_,lt_of_hasMethodId (List.find?_some found),rfl⟩
    · exact ⟨by simp,_,by simp,rfl⟩
  · split
    · next found => exact ⟨le_rfl,_,lt_of_hasMethodId (List.find?_some found),rfl⟩
    · exact ⟨by simp,_,by simp,rfl⟩

private theorem exitFrames_from {exiting : MethodCallInfo} {frames : List MethodCallInfo} :
    ∀ frame ∈ (exitFrames exiting frames).1,
      ∃ was ∈ frames, frame.correspondingStackTraceMeasure = was.correspondingStackTraceMeasure := by
  induction frames with
  | nil => simp [exitFrames]
  | cons first rest ih =>
    by_cases own : first.methodId = exiting.methodId
    · rw [exitFrames_own own]
      cases rest with
      | nil => simp [chargeCaller]
      | cons caller callers =>
        intro frame among
        rcases List.mem_cons.mp among with rfl | later
        · exact ⟨caller,by simp,rfl⟩
        · exact ⟨frame,by simp [later],rfl⟩
    · rw [exitFrames_other own]
      intro frame among
      obtain ⟨was,older,same⟩ := ih frame among
      exact ⟨was,List.mem_cons_of_mem _ older,same⟩

private theorem stored_handle {thread : VexThreadState} (wf : WellFormed thread.methodLog) (stored : Stored thread)
    (event : Event) : Stored (thread.handle event).1 := by
  cases event with
  | entry methodId clocks =>
    cases traced : thread.stackTrace with
    | none =>
      intro trace among
      simp [VexThreadState.handle,VexThreadState.logMethodEntry,traced] at among
    | some trace =>
      obtain ⟨grown,node,inside,current⟩ := current_stored trace methodId
      intro moved same
      simp only [VexThreadState.handle,VexThreadState.logMethodEntry,traced,Option.mem_def,Option.some.injEq] at same ⊢
      subst same
      rw [MethodLog.logMethodEntry_frames wf]
      intro frame among
      rcases List.mem_cons.mp among with rfl | older
      · exact ⟨node,inside,current⟩
      · obtain ⟨node,before,same⟩ := stored trace traced frame older
        exact ⟨node,before.trans_le grown,same⟩
  | exit methodId clocks =>
    intro trace among frame open'
    simp only [VexThreadState.handle] at among open'
    rw [(thread.logMethodExit_frames wf methodId clocks).1] at open'
    obtain ⟨was,older,same⟩ := exitFrames_from frame open'
    have sameLength : ∃ before ∈ thread.stackTrace, trace.nodes.length = before.nodes.length := by
      rw [thread.logMethodExit_stackTrace methodId clocks] at among
      split at among
      · exact ⟨trace,among,rfl⟩
      · unfold VexThreadState.addToExitingMethodPerformanceMeasure at among
        split at among
        · next untraced => exact ⟨trace,among,rfl⟩
        · next before traced =>
          split at among
          · exact ⟨trace,among,rfl⟩
          · cases among
            exact ⟨before,traced,by simp [StackTrace.exitAt]⟩
    obtain ⟨before,traced,length⟩ := sameLength
    obtain ⟨node,inside,stays⟩ := stored before traced was older
    exact ⟨node,length ▸ inside,same.trans stays⟩

private theorem after_inv (stackTraces : Bool) (events : List Event) :
    WellFormed (after (initial stackTraces) events).methodLog ∧ Stored (after (initial stackTraces) events) := by
  have start : WellFormed (initial stackTraces).methodLog ∧ Stored (initial stackTraces) :=
    ⟨wellFormed_init,fun _ _ frame among => absurd among List.not_mem_nil⟩
  generalize initial stackTraces = thread at start ⊢
  induction events generalizing thread with
  | nil => exact start
  | cons event rest ih => exact ih _ ⟨wellFormed_handle start.1 event,stored_handle start.1 start.2 event⟩

private theorem exit_sample (thread : VexThreadState) (methodId : Int) (clocks : Times) :
    (thread.logMethodExit methodId clocks).2 = none ↔ Spurious thread methodId := by
  rw [(thread.logMethodExit_methodLog methodId clocks).2]
  rcases @MethodLog.logMethodExitOn_cases (thread.methodLog.updateExitingMethodInfo methodId clocks)
      thread.methodLog.methodStack with ⟨unmatched,emptied⟩ | ⟨above,slot,rest,split,-,same,matched⟩
  · refine iff_of_true ?_ unmatched
    exact congrArg Prod.snd emptied
  · refine iff_of_false ?_ fun spurious => spurious slot (by simp [split]) same
    intro missed
    rw [MethodLog.logMethodExit] at missed
    simp only [MethodLog.updateExitingMethodInfo] at missed matched
    rw [matched] at missed
    contradiction

private theorem find_addToMeasures (methodId : Int) (sample : Sample) (measures : List PerformanceMeasure) :
    ∃ measure, (addToMeasures methodId sample measures).find? (·.methodId = methodId) = some measure ∧
      measure.samples = (measures.find? (·.methodId = methodId)).elim 0 (·.samples) + 1 := by
  unfold addToMeasures
  split
  · next present =>
    obtain ⟨found,there⟩ := Option.isSome_iff_exists.mp (List.find?_isSome.mpr (List.any_eq_true.mp present))
    have own : found.methodId = methodId := by simpa using List.find?_some there
    refine ⟨found.add sample,?_,?_⟩
    · have same : (fun measure : PerformanceMeasure => decide (measure.methodId = methodId)) ∘
          (fun measure => if measure.methodId = methodId then measure.add sample else measure) =
          fun measure => decide (measure.methodId = methodId) := by
        funext measure
        simp only [Function.comp_apply]
        split <;> rfl
      rw [List.find?_map,same,there,Option.map_some,if_pos own]
    · rw [there]
      rfl
  · next absent =>
    have missing : measures.find? (·.methodId = methodId) = none := by
      rw [List.find?_eq_none]
      intro measure among same
      exact absent (List.any_eq_true.mpr ⟨measure,among,same⟩)
    refine ⟨({ methodId } : PerformanceMeasure).add sample,?_,?_⟩
    · rw [List.find?_append,missing]
      simp
    · rw [missing]
      rfl

private theorem logMethodExit_finished {thread : VexThreadState} {methodId : Int} {clocks : Times} {sample : Sample}
    (finished : (thread.logMethodExit methodId clocks).2 = some sample) :
    ∃ log, (thread.logMethodExit methodId clocks).1 =
      { thread.addToExitingMethodPerformanceMeasure methodId sample with methodLog := log } := by
  simp only [VexThreadState.logMethodExit] at finished ⊢
  generalize (thread.methodLog.updateExitingMethodInfo methodId clocks).logMethodExit = exited at finished ⊢
  obtain ⟨log,exitSample⟩ := exited
  cases exitSample with
  | none => contradiction
  | some other =>
    cases finished
    exact ⟨log,rfl⟩

/-- The exit of an open call leads to a measure, and has added a sample to it. -/
private theorem exit_measure {thread : VexThreadState} (wf : WellFormed thread.methodLog) (stored : Stored thread)
    {methodId : Int} (clocks : Times) (open' : ¬ Spurious thread methodId) :
    ∃ measure, (onVexMethodExit thread methodId clocks).2 = some measure ∧
      measure.samples = samplesBefore thread methodId + 1 := by
  obtain ⟨sample,finished⟩ := Option.ne_none_iff_exists'.mp ((exit_sample thread methodId clocks).not.mpr open')
  obtain ⟨log,exited⟩ := logMethodExit_finished finished
  simp only [onVexMethodExit,finished,Option.bind_some,exited,getExitingMethodPerformanceMeasure,samplesBefore]
  cases traced : thread.stackTrace with
  | none =>
    simp only [VexThreadState.addToExitingMethodPerformanceMeasure,traced]
    exact find_addToMeasures methodId sample thread.measures
  | some trace =>
    have calls : thread.methodLog.frames ≠ [] := by
      intro none'
      exact open' fun slot among => absurd (List.map_eq_nil_iff.mp none' ▸ among) List.not_mem_nil
    obtain ⟨newest,rest,frames⟩ := List.exists_cons_of_ne_nil calls
    obtain ⟨node,inside,leads⟩ := stored trace traced newest (by simp [frames])
    have current : thread.exitingNode = some node := by
      rw [VexThreadState.exitingNode_eq wf,frames]
      exact leads
    simp only [VexThreadState.addToExitingMethodPerformanceMeasure,traced,current,Option.bind_some,StackTrace.exitAt,
      List.getElem?_modify_eq,List.getElem?_eq_getElem inside]
    exact ⟨_,rfl,rfl⟩

/-- Every policy in time needs a measure, and divides its samples by the limit if there are any. -/
private theorem keepOnProfiling_isSome_iff (policy : ProfilingInvalidationPolicy) (globalTime : Int)
    (pm : Option PerformanceMeasure) : (policy.keepOnProfiling globalTime pm).isSome ↔
      ∀ minimumAcceptableTime, policy.kind = .absoluteTime minimumAcceptableTime →
        ∃ measure ∈ pm, getMethodInvocations measure = 0 ∨ policy.samplesLimit ≠ 0 := by
  unfold ProfilingInvalidationPolicy.keepOnProfiling
  cases policy.kind with
  | sampleBased => simp
  | relativePercentage percentage => simp
  | absoluteTime minimumAcceptableTime =>
    cases pm with
    | none => simp
    | some measure =>
      simp only [Option.bind_some,Option.mem_def,Option.some.injEq,exists_eq_left']
      by_cases uncounted : getMethodInvocations measure = 0
      · rw [if_pos uncounted]
        exact iff_of_true rfl fun _ _ => .inl uncounted
      · rw [if_neg uncounted]
        by_cases unlimited : policy.samplesLimit = 0
        · rw [if_pos unlimited]
          exact iff_of_false Bool.false_ne_true fun counts => (counts _ rfl).elim uncounted (· unlimited)
        · rw [if_neg unlimited]
          exact iff_of_true rfl fun _ _ => .inr unlimited

private theorem invocations_eq_zero_iff {measure : PerformanceMeasure} {before : Nat} (counted : measure.samples = before + 1) :
    getMethodInvocations measure = 0 ↔ before % 2 ^ 32 = 2 ^ 32 - 1 := by
  rw [getMethodInvocations,counted,← BitVec.toNat_inj,BitVec.toNat_ofNat]
  change (before + 1) % 2 ^ 32 = 0 ↔ _
  omega

private theorem describedKind_absolute {text : CString} {minimumAcceptableTime : Int} :
    describedKind text = .absoluteTime minimumAcceptableTime ↔
      ':' ∈ text.val ∧ number (secondInfo text) ≠ 0 ∧ number (secondInfo text) = minimumAcceptableTime := by
  unfold describedKind
  split
  · next colon =>
    split
    · next relative => simp [relative]
    · next absolute => simp [colon,absolute]
  · next absent => simp [absent]

private theorem answers_iff {text : CString} {policy : ProfilingInvalidationPolicy} {thread : VexThreadState}
    (wf : WellFormed thread.methodLog) (stored : Stored thread)
    (limit : policy.samplesLimit.toNat = number (firstInfo text)) (kind : policy.kind = describedKind text)
    (globalTime methodId : Int) (clocks : Times) :
    (beforeMethodExit (some policy) globalTime thread methodId clocks).isSome ↔ Answerable text thread methodId := by
  have limited : policy.samplesLimit ≠ 0 ↔ number (firstInfo text) ≠ 0 := by
    rw [← limit,Ne,← BitVec.toNat_inj]
    change ¬ policy.samplesLimit.toNat = 0 ↔ _
    omega
  simp only [beforeMethodExit,Option.isSome_map,keepOnProfiling_isSome_iff,kind,describedKind_absolute,limited]
  constructor
  · intro answered colon absolute
    obtain ⟨measure,found,divides⟩ := answered _ ⟨colon,absolute,rfl⟩
    have open' : ¬ Spurious thread methodId := by
      intro spurious
      simp only [onVexMethodExit,(exit_sample thread methodId clocks).mpr spurious,Option.bind_none] at found
      contradiction
    obtain ⟨same,there,counted⟩ := exit_measure wf stored clocks open'
    obtain rfl : same = measure := Option.some.inj (there.symm.trans found)
    exact ⟨open',divides.symm.imp_right (invocations_eq_zero_iff counted).mp⟩
  · rintro answerable minimumAcceptableTime ⟨colon,absolute,-⟩
    obtain ⟨open',divides⟩ := answerable colon absolute
    obtain ⟨measure,found,counted⟩ := exit_measure wf stored clocks open'
    exact ⟨measure,found,divides.symm.imp_left (invocations_eq_zero_iff counted).mpr⟩

/-- After every run of events: the text is readable, and the exit can be answered for. -/
theorem invalidation_safe_iff (text : CString) (globalTime : Int) (stackTraces : Bool) (events : List Event)
    (methodId : Int) (clocks : Times) :
    Safe text globalTime (after (initial stackTraces) events) methodId clocks ↔
      Readable text ∧ Answerable text (after (initial stackTraces) events) methodId := by
  obtain ⟨wf,stored⟩ := after_inv stackTraces events
  constructor
  · intro safe
    have readable : Readable text := readable_of_register fun samplesLimit => by
      obtain ⟨policy,created,limit,kind,-⟩ := safe samplesLimit
      exact ⟨policy,created,limit,kind⟩
    obtain ⟨policy,-,limit,kind,answered⟩ := safe ⟨List.replicate 32 '1',List.length_replicate⟩
    exact ⟨readable,(answers_iff wf stored limit kind globalTime methodId clocks).mp answered⟩
  · rintro ⟨readable,answerable⟩ samplesLimit
    obtain ⟨policy,created,limit,kind⟩ := register_of_readable readable samplesLimit
    exact ⟨policy,created,limit,kind,(answers_iff wf stored limit kind globalTime methodId clocks).mpr answerable⟩

/-- A limit of ten samples, whose number has no end before the colon. -/
def tenSamples : CString := ⟨['1','0',':','5'],by simp⟩

/-- The same with a blank before the colon. -/
def tenSamplesEnded : CString := ⟨['1','0',' ',':','5'],by simp⟩

/-- The buffer decides about the first text's limit, and the second one's policy follows a null pointer in the first exit of
    a thread that is in no call. -/
theorem policies_not_safe :
    ¬ Safe tenSamples 0 (after (initial false) [.entry 1 0]) 1 0 ∧
      ¬ Safe tenSamplesEnded 0 (after (initial false) []) 1 0 := by
  constructor
  · rw [invalidation_safe_iff]
    rintro ⟨⟨-,-,divided⟩,-⟩
    exact (divided (by decide)).2.1 (by decide)
  · rw [invalidation_safe_iff]
    rintro ⟨-,answerable⟩
    exact (answerable (by decide) (by decide)).1 fun slot among => absurd among List.not_mem_nil

end Vexjine.InvalidationPolicies
