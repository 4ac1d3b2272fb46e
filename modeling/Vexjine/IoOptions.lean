import Vexjine.Documents
import Vexjine.Loops

/-!
# Options of the simulated I/O

A text of options, each an attribute and a value with a `-` between them, sets the parameters that the protocol, the
predictor and the factory of prediction methods are created from.
-/

namespace Vexjine.IoOptions
open DecimalLines

/-- `strtok`: the next token and what is behind the delimiter that ends it. -/
def strtok (delims : List Char) (text : List Char) : Option (List Char × List Char) :=
  match text.dropWhile (· ∈ delims) with
  | [] => none
  | rest => some (rest.takeWhile (· ∉ delims),(rest.dropWhile (· ∉ delims)).tail)

inductive IoProtocol where
  | serial
  | strict
  | lax
  | normal
  | none
  deriving DecidableEq

inductive IoExcluder where
  | all
  | percent (acceptanceRate : ℤ)
  deriving DecidableEq

/-- The parameters that the options set. A protocol that is not there is NULL. -/
structure IoParameters where
  predictionMethod : String
  predictorType : String
  predictionMethodBufferSize : UInt32
  protocol : Option IoProtocol
  /-- The threshold of the recognizer. -/
  recognizer : Option ℤ
  excluder : Option IoExcluder
  ioImportMeasurementsFilesPrefix : Option String
  modelFilename : Option String
  deriving DecidableEq

namespace IoParameters

def setDefaultValues : IoParameters where
  predictionMethod := "avg"
  predictorType := "invpoint"
  predictionMethodBufferSize := 16
  protocol := some .normal
  recognizer := .none
  excluder := .none
  ioImportMeasurementsFilesPrefix := .none
  modelFilename := .none

def parseIoPolicy (ioPolicyOption : String) : Option IoProtocol :=
  if ioPolicyOption = "serial" then some .serial
  else if ioPolicyOption = "strict" then some .strict
  else if ioPolicyOption = "lax" then some .lax
  else if ioPolicyOption = "normal" then some .normal
  else if ioPolicyOption = "none" then some .none
  else .none

variable (parameters : IoParameters)

def parseIoLevel (value : String) : Bool × IoParameters :=
  if value = "global" ∨ value = "invpoint" ∨ value = "ioop" ∨ value = "none"
  then (true,{ parameters with predictorType := value })
  else (false,parameters)

def parseRandomIoRecognition (value : String) : Bool × IoParameters :=
  (true,{ parameters with excluder := some (if atoi value.toList = 0 then .all else .percent (atoi value.toList)) })

def parseThresholdIoRecognition (value : String) : Bool × IoParameters :=
  (true,{ parameters with recognizer := some (atoi value.toList) })

def setValue (attr value : String) : Bool × IoParameters :=
  if attr = "io" then
    ((parseIoPolicy value).isSome,{ parameters with protocol := parseIoPolicy value })
  else if attr = "iopred" then (true,{ parameters with predictionMethod := value })
  else if attr = "iolevel" then parameters.parseIoLevel value
  else if attr = "iobuffer" then
    (decide (0 < UInt32.ofInt (atoi value.toList)),
      { parameters with predictionMethodBufferSize := UInt32.ofInt (atoi value.toList) })
  else if attr = "iomodel" then (true,{ parameters with modelFilename := some value })
  else if attr = "iostats" then (false,parameters)
  else if attr = "ioimport" then (true,{ parameters with ioImportMeasurementsFilesPrefix := some value })
  else if attr = "ioexclude" then parameters.parseRandomIoRecognition value
  else if attr = "iodisregard" then (true,{ parameters with excluder := some .all })
  else if attr = "iothreshold" then parameters.parseThresholdIoRecognition value
  else (false,parameters)

/-- The attribute and the value of an option. -/
def attributeAndValue (delims option : List Char) : Option (String × String) := do
  let (attr,rest) ← strtok ['-'] option
  let (value,_) ← strtok delims rest
  some (String.ofList attr,String.ofList value)

def parseOption (delims option : List Char) : Bool × IoParameters :=
  match attributeAndValue delims option with
  | .none => (false,parameters)
  | some (attr,value) => parameters.setValue attr value

/-- The first options of a text. -/
def options (delims : List Char) : ℕ → List Char → List (List Char)
  | 0, _ => []
  | count + 1, text =>
    match strtok delims text with
    | .none => []
    | some (option,rest) => option :: options delims count rest

/-- The constructor has room for ten pointers, the last of which is not used: it is NULL or an option too many. -/
def construct (delims text : List Char) : IoParameters :=
  (options delims 9 text).foldl (fun parameters option => (parameters.parseOption delims option).2) setDefaultValues

/-- The protocol that is used, with the serial one in front of it when I/O operations are recognized or excluded. -/
def getIoProtocol : Bool × Option IoProtocol :=
  (parameters.excluder ≠ .none ∨ parameters.recognizer ≠ .none,parameters.protocol)

end IoParameters

inductive IoPredictor where
  | global
  | operationAware
  | stateAware
  | none
  deriving DecidableEq

/-- The predictor that is created for a level. -/
def createPredictor (predictorType : String) : IoPredictor :=
  if predictorType = "global" then .global
  else if predictorType = "ioop" then .operationAware
  else if predictorType = "invpoint" then .stateAware
  else .none

inductive Method where
  | replay
  | average
  | median
  | sampling
  | minimum
  | maximum
  | gsl
  | constantMean
  | linearRegression
  | burgAutoRegression
  | yulesWalkerAutoRegression
  | markov
  | none
  deriving DecidableEq

/-- A type that is not there is not initialised. -/
structure PredictionMethodFactory where
  type : Option Method
  markovStates : UInt32
  bufferSize : UInt32
  ioImportMeasurementsFilesPrefix : Option String

namespace PredictionMethodFactory

/-- The type for the name of a method. -/
def typeOf (method : String) : Option Method :=
  if method = "avg" then some .average
  else if method = "median" then some .median
  else if method = "sampling" then some .sampling
  else if method = "min" then some .minimum
  else if method = "max" then some .maximum
  else if method = "gsl" then some .gsl
  else if method = "cmean" then some .constantMean
  else if method = "linregr" then some .linearRegression
  else if method = "arburg" then some .burgAutoRegression
  else if method = "aryulwalk" then some .yulesWalkerAutoRegression
  else if method.toList.take 6 = "markov".toList then some .markov
  else if method = "none" then some .none
  else if method = "replay" then some .replay
  else .none

/-- The text behind `markov`. -/
def statesOf (method : String) : Option String :=
  if typeOf method = some .markov ∧ 6 < method.toList.length then some (String.ofList (method.toList.drop 6)) else .none

def setPredictionMethod (factory : PredictionMethodFactory) (method : String) : Bool × PredictionMethodFactory :=
  match typeOf method with
  | .none => (false,factory)
  | some type => (true,{ factory with
      type := some type
      markovStates := (statesOf method).elim factory.markovStates fun states => UInt32.ofInt (atoi states.toList) })

/-- The constructor. -/
def construct (parameters : IoParameters) : PredictionMethodFactory :=
  let (_,factory) := setPredictionMethod ⟨.none,0,0,.none⟩ parameters.predictionMethod
  { factory with
    bufferSize := parameters.predictionMethodBufferSize
    ioImportMeasurementsFilesPrefix := parameters.ioImportMeasurementsFilesPrefix
    markovStates := 2 }

end PredictionMethodFactory

/-! ## What the options ask for -/

section Requests
open IoParameters PredictionMethodFactory

variable (delims : List Char)

def accepted (option : List Char) : Prop := (setDefaultValues.parseOption delims option).1 = true

instance (option : List Char) : Decidable (accepted delims option) := inferInstanceAs (Decidable (_ = true))

/-- The value of an accepted option of the given kind. -/
def asked (attr : String) (option : List Char) : Option String :=
  (attributeAndValue delims option).bind fun pair => if pair.1 = attr ∧ accepted delims option then some pair.2 else none

/-- The last value that is asked for. -/
def request (attr : String) (options : List (List Char)) : Option String := LastWins.last (asked delims attr) options

def protocolAsked (options : List (List Char)) : Option IoProtocol :=
  (request delims "io" options).elim (some .normal) parseIoPolicy

def predictorAsked (options : List (List Char)) : IoPredictor :=
  createPredictor ((request delims "iolevel" options).getD "invpoint")

def methodAsked (options : List (List Char)) : String := (request delims "iopred" options).getD "avg"

def sizeAsked (options : List (List Char)) : ℤ := (request delims "iobuffer" options).elim 16 (atoll ∘ String.toList)

/-- The parameters after some options. -/
def parsed (options : List (List Char)) : IoParameters :=
  options.foldl (fun parameters option => (parameters.parseOption delims option).2) setDefaultValues

/-- All accepted options of the text have the effect that they ask for, the rejected ones that are tried have none, and
    there are a buffer and a protocol. -/
structure Faithful (text : List Char) : Prop where
  protocol : (construct delims text).getIoProtocol.2 = protocolAsked delims (options delims text.length text)
  predictor : createPredictor (construct delims text).predictorType =
    predictorAsked delims (options delims text.length text)
  method : ∃ type, typeOf (methodAsked delims (options delims text.length text)) = some type ∧
    (PredictionMethodFactory.construct (construct delims text)).type = some type
  states : ∀ number, statesOf (methodAsked delims (options delims text.length text)) = some number →
    ((PredictionMethodFactory.construct (construct delims text)).markovStates.toNat : ℤ) = atoll number.toList
  size : ((PredictionMethodFactory.construct (construct delims text)).bufferSize.toNat : ℤ) =
    sizeAsked delims (options delims text.length text)
  kept : ∀ before option after, options delims 9 text = before ++ option :: after → ¬accepted delims option →
    ((parsed delims before).parseOption delims option).2 = parsed delims before
  positive : 0 < (PredictionMethodFactory.construct (construct delims text)).bufferSize
  present : (construct delims text).getIoProtocol.2.isSome

/-- The options that are tried are the first nine. -/
structure Effective (text : List Char) : Prop where
  rejected : ∀ option ∈ options delims 9 text, ¬accepted delims option → ∀ value,
    attributeAndValue delims option ≠ some ("io",value) ∧
      attributeAndValue delims option ≠ some ("iobuffer",value)
  protocol : protocolAsked delims (options delims 9 text) = protocolAsked delims (options delims text.length text)
  predictor : predictorAsked delims (options delims 9 text) = predictorAsked delims (options delims text.length text)
  method : typeOf (methodAsked delims (options delims 9 text)) =
    typeOf (methodAsked delims (options delims text.length text))
  known : typeOf (methodAsked delims (options delims text.length text)) ≠ none
  states : ∀ number, statesOf (methodAsked delims (options delims text.length text)) = some number → atoll number.toList = 2
  size : sizeAsked delims (options delims 9 text) % 2 ^ 32 = sizeAsked delims (options delims text.length text)

end Requests

/-! ## One option -/

section Step
open IoParameters

variable {delims : List Char} {option : List Char} {attr value : String} (parameters : IoParameters)

private theorem setValue_io : parameters.setValue "io" value =
    ((parseIoPolicy value).isSome,{ parameters with protocol := parseIoPolicy value }) := if_pos rfl

private theorem setValue_iopred : parameters.setValue "iopred" value =
    (true,{ parameters with predictionMethod := value }) := rfl

private theorem setValue_iolevel : parameters.setValue "iolevel" value = parameters.parseIoLevel value := rfl

private theorem setValue_iobuffer : parameters.setValue "iobuffer" value =
    (decide (0 < UInt32.ofInt (atoi value.toList)),
      { parameters with predictionMethodBufferSize := UInt32.ofInt (atoi value.toList) }) := rfl

/-- The other attributes have nothing to do with the predictions. -/
private theorem setValue_other (notIo : attr ≠ "io") (notPred : attr ≠ "iopred") (notLevel : attr ≠ "iolevel")
    (notBuffer : attr ≠ "iobuffer") :
    (parameters.setValue attr value).1 = decide (attr ∈ ["iomodel","ioimport","ioexclude","iodisregard","iothreshold"]) ∧
    (parameters.setValue attr value).2.protocol = parameters.protocol ∧
    (parameters.setValue attr value).2.predictionMethod = parameters.predictionMethod ∧
    (parameters.setValue attr value).2.predictorType = parameters.predictorType ∧
    (parameters.setValue attr value).2.predictionMethodBufferSize = parameters.predictionMethodBufferSize ∧
    ((parameters.setValue attr value).1 = false → (parameters.setValue attr value).2 = parameters) := by
  rw [setValue,if_neg notIo,if_neg notPred,if_neg notLevel,if_neg notBuffer]
  split_ifs <;> simp_all [parseRandomIoRecognition,parseThresholdIoRecognition]

/-- The attributes that have to do with the predictions, and the others. -/
@[elab_as_elim]
private theorem attribute_cases {motive : String → Prop} (io : motive "io") (iopred : motive "iopred")
    (iolevel : motive "iolevel") (iobuffer : motive "iobuffer")
    (other : ∀ attr, attr ≠ "io" → attr ≠ "iopred" → attr ≠ "iolevel" → attr ≠ "iobuffer" → motive attr)
    (attr : String) : motive attr := by
  by_cases isIo : attr = "io"
  · exact isIo ▸ io
  by_cases isPred : attr = "iopred"
  · exact isPred ▸ iopred
  by_cases isLevel : attr = "iolevel"
  · exact isLevel ▸ iolevel
  by_cases isBuffer : attr = "iobuffer"
  · exact isBuffer ▸ iobuffer
  · exact other attr isIo isPred isLevel isBuffer

private theorem setValue_protocol : (parameters.setValue attr value).2.protocol =
    if attr = "io" then parseIoPolicy value else parameters.protocol := by
  cases attr using attribute_cases with
  | io => rw [setValue_io,if_pos rfl]
  | iopred => rfl
  | iolevel =>
    rw [setValue_iolevel,parseIoLevel,if_neg (show "iolevel" ≠ "io" by decide)]
    split_ifs <;> rfl
  | iobuffer => rfl
  | other attr io pred level buffer =>
    rw [if_neg io]
    exact (setValue_other parameters io pred level buffer).2.1

private theorem setValue_predictionMethod : (parameters.setValue attr value).2.predictionMethod =
    if attr = "iopred" then value else parameters.predictionMethod := by
  cases attr using attribute_cases with
  | io => rfl
  | iopred => rw [setValue_iopred,if_pos rfl]
  | iolevel =>
    rw [setValue_iolevel,parseIoLevel,if_neg (show "iolevel" ≠ "iopred" by decide)]
    split_ifs <;> rfl
  | iobuffer => rfl
  | other attr io pred level buffer =>
    rw [if_neg pred]
    exact (setValue_other parameters io pred level buffer).2.2.1

private theorem setValue_predictorType : (parameters.setValue attr value).2.predictorType =
    if attr = "iolevel" ∧ (parameters.setValue attr value).1 = true then value else parameters.predictorType := by
  cases attr using attribute_cases with
  | io => rfl
  | iopred => rfl
  | iolevel =>
    rw [setValue_iolevel,parseIoLevel]
    split_ifs <;> simp_all
  | iobuffer => rfl
  | other attr io pred level buffer =>
    rw [if_neg fun both => level both.1]
    exact (setValue_other parameters io pred level buffer).2.2.2.1

private theorem setValue_size : (parameters.setValue attr value).2.predictionMethodBufferSize =
    if attr = "iobuffer" then UInt32.ofInt (atoi value.toList) else parameters.predictionMethodBufferSize := by
  cases attr using attribute_cases with
  | io => rfl
  | iopred => rfl
  | iolevel =>
    rw [setValue_iolevel,parseIoLevel,if_neg (show "iolevel" ≠ "iobuffer" by decide)]
    split_ifs <;> rfl
  | iobuffer => rw [setValue_iobuffer,if_pos rfl]
  | other attr io pred level buffer =>
    rw [if_neg buffer]
    exact (setValue_other parameters io pred level buffer).2.2.2.2.1

/-- What is accepted does not depend on the parameters. -/
private theorem setValue_accepted (other : IoParameters) :
    (parameters.setValue attr value).1 = (other.setValue attr value).1 := by
  cases attr using attribute_cases with
  | io => rw [setValue_io,setValue_io]
  | iopred => rfl
  | iolevel =>
    rw [setValue_iolevel,setValue_iolevel,parseIoLevel,parseIoLevel]
    split_ifs <;> rfl
  | iobuffer => rw [setValue_iobuffer,setValue_iobuffer]
  | other attr io pred level buffer =>
    rw [(setValue_other parameters io pred level buffer).1,(setValue_other other io pred level buffer).1]

private theorem ofInt_atoi (value : String) : UInt32.ofInt (atoi value.toList) = UInt32.ofInt (atoll value.toList) := by
  have wrapped : atoi value.toList % ((2 ^ 32 : ℕ) : ℤ) = atoll value.toList % ((2 ^ 32 : ℕ) : ℤ) := Int.bmod_emod
  exact congrArg (fun number : ℤ => UInt32.ofNat number.toNat) wrapped

end Step

/-! ## Several options -/

section Run
open IoParameters

variable {delims option : List Char} {attr value : String}

private theorem accepted_iff (pair : attributeAndValue delims option = some (attr,value)) (parameters : IoParameters) :
    accepted delims option ↔ (parameters.setValue attr value).1 = true := by
  rw [accepted,parseOption,pair]
  exact iff_of_eq (congrArg (· = true) (setValue_accepted setDefaultValues parameters))

private theorem asked_of_pair (pair : attributeAndValue delims option = some (attr,value)) (name : String) :
    asked delims name option = if attr = name ∧ accepted delims option then some value else none := by
  rw [asked,pair]
  rfl

/-- A rejected option that is no option of the attribute. -/
private def Spares (delims : List Char) (name : String) (option : List Char) : Prop :=
  ¬accepted delims option → ∀ value, attributeAndValue delims option ≠ some (name,value)

private theorem asked_eq {name : String} (spares : Spares delims name option)
    (pair : attributeAndValue delims option = some (attr,value)) :
    asked delims name option = if attr = name then some value else none := by
  rw [asked_of_pair pair]
  by_cases same : attr = name
  · subst same
    by_cases taken : accepted delims option
    · rw [if_pos ⟨rfl,taken⟩,if_pos rfl]
    · exact absurd pair (spares taken value)
  · rw [if_neg same,if_neg fun both => same both.1]

private theorem protocol_step (spares : Spares delims "io" option) (parameters : IoParameters) :
    (parameters.parseOption delims option).2.protocol =
      ((asked delims "io" option).map parseIoPolicy).getD parameters.protocol := by
  cases pair : attributeAndValue delims option with
  | none => simp [parseOption,asked,pair]
  | some found =>
    rw [asked_eq spares pair,parseOption,pair]
    dsimp only
    rw [setValue_protocol]
    split_ifs <;> rfl

private theorem size_step (spares : Spares delims "iobuffer" option) (parameters : IoParameters) :
    (parameters.parseOption delims option).2.predictionMethodBufferSize =
      ((asked delims "iobuffer" option).map fun value => UInt32.ofInt (atoi value.toList)).getD
        parameters.predictionMethodBufferSize := by
  cases pair : attributeAndValue delims option with
  | none => simp [parseOption,asked,pair]
  | some found =>
    rw [asked_eq spares pair,parseOption,pair]
    dsimp only
    rw [setValue_size]
    split_ifs <;> rfl

private theorem method_step (parameters : IoParameters) :
    (parameters.parseOption delims option).2.predictionMethod =
      (asked delims "iopred" option).getD parameters.predictionMethod := by
  have spares : Spares delims "iopred" option := fun rejected value pair =>
    rejected ((accepted_iff pair parameters).mpr (by rw [setValue_iopred]))
  cases pair : attributeAndValue delims option with
  | none => simp [parseOption,asked,pair]
  | some found =>
    rw [asked_eq spares pair,parseOption,pair]
    dsimp only
    rw [setValue_predictionMethod]
    split_ifs <;> rfl

private theorem level_step (parameters : IoParameters) :
    (parameters.parseOption delims option).2.predictorType =
      (asked delims "iolevel" option).getD parameters.predictorType := by
  cases pair : attributeAndValue delims option with
  | none => simp [parseOption,asked,pair]
  | some found =>
    rw [asked_of_pair pair,parseOption,pair]
    dsimp only
    rw [setValue_predictorType]
    simp only [accepted_iff pair parameters]
    split_ifs <;> rfl

variable {options : List (List Char)}

private theorem parsed_protocol (spares : ∀ option ∈ options, Spares delims "io" option) :
    (parsed delims options).protocol = protocolAsked delims options := by
  rw [parsed,LastWins.field_foldl fun option member => protocol_step (spares option member),LastWins.last_map,
    protocolAsked,request]
  cases LastWins.last (asked delims "io") options <;> rfl

private theorem parsed_size (spares : ∀ option ∈ options, Spares delims "iobuffer" option) :
    (parsed delims options).predictionMethodBufferSize = UInt32.ofInt (sizeAsked delims options) := by
  rw [parsed,LastWins.field_foldl fun option member => size_step (spares option member),LastWins.last_map,
    sizeAsked,request]
  cases LastWins.last (asked delims "iobuffer") options with
  | none => rfl
  | some value => exact ofInt_atoi value

private theorem parsed_method : (parsed delims options).predictionMethod = methodAsked delims options := by
  rw [parsed,LastWins.field_foldl fun option _ => method_step]
  rfl

private theorem parsed_predictor : createPredictor (parsed delims options).predictorType = predictorAsked delims options := by
  rw [parsed,LastWins.field_foldl fun option _ => level_step]
  rfl

private theorem rejected_unchanged (rejected : ¬accepted delims option) (noProtocol : Spares delims "io" option)
    (noSize : Spares delims "iobuffer" option) (parameters : IoParameters) :
    (parameters.parseOption delims option).2 = parameters := by
  rw [parseOption]
  cases pair : attributeAndValue delims option with
  | none => rfl
  | some found =>
    obtain ⟨attr,value⟩ := found
    dsimp only
    have refused := Bool.eq_false_of_not_eq_true ((accepted_iff pair parameters).not.mp rejected)
    have io : attr ≠ "io" := fun same => noProtocol rejected value (same ▸ pair)
    have buffer : attr ≠ "iobuffer" := fun same => noSize rejected value (same ▸ pair)
    have pred : attr ≠ "iopred" := by
      rintro rfl
      rw [setValue_iopred] at refused
      cases refused
    by_cases level : attr = "iolevel"
    · subst level
      rw [setValue_iolevel,parseIoLevel] at refused ⊢
      split_ifs at refused ⊢
      rfl
    · exact (setValue_other parameters io pred level buffer).2.2.2.2.2 refused

/-- A rejected protocol is NULL, and a rejected size 0. -/
private theorem spares_of_kept
    (kept : ∀ before option after, options = before ++ option :: after → ¬accepted delims option →
      ((parsed delims before).parseOption delims option).2 = parsed delims before) :
    (parsed delims options).protocol.isSome = true ∧ 0 < (parsed delims options).predictionMethodBufferSize ∧
      ∀ option ∈ options, Spares delims "io" option ∧ Spares delims "iobuffer" option := by
  induction options using List.reverseRecOn with
  | nil => exact ⟨rfl,show 0 < (16 : UInt32) by decide,fun _ member => absurd member List.not_mem_nil⟩
  | append_singleton options option ih =>
    obtain ⟨present,positive,spared⟩ := ih fun before other after split =>
      kept before other (after ++ [option]) (by simp [split])
    have next : parsed delims (options ++ [option]) = ((parsed delims options).parseOption delims option).2 := by
      rw [parsed,List.foldl_append]
      rfl
    have unchanged : ¬accepted delims option → parsed delims (options ++ [option]) = parsed delims options :=
      fun rejected => next.trans (kept options option [] rfl rejected)
    have noProtocol : Spares delims "io" option := fun rejected value pair => by
      have changed := congrArg IoParameters.protocol (unchanged rejected)
      rw [next,parseOption,pair] at changed
      rw [accepted_iff pair (parsed delims options),setValue_io] at rejected
      rw [← changed] at present
      exact rejected present
    have noSize : Spares delims "iobuffer" option := fun rejected value pair => by
      have changed := congrArg IoParameters.predictionMethodBufferSize (unchanged rejected)
      rw [next,parseOption,pair] at changed
      rw [accepted_iff pair (parsed delims options),setValue_iobuffer] at rejected
      rw [← changed] at positive
      exact rejected (decide_eq_true positive)
    have all : ∀ other ∈ options ++ [option], Spares delims "io" other ∧ Spares delims "iobuffer" other := by
      intro other member
      rcases List.mem_append.mp member with earlier | last
      · exact spared other earlier
      · obtain rfl := List.mem_singleton.mp last
        exact ⟨noProtocol,noSize⟩
    by_cases taken : accepted delims option
    · cases pair : attributeAndValue delims option with
      | none =>
        rw [accepted,parseOption,pair] at taken
        cases taken
      | some found =>
        obtain ⟨attr,value⟩ := found
        have verdict := (accepted_iff pair (parsed delims options)).mp taken
        rw [next,parseOption,pair]
        refine ⟨?_,?_,all⟩
        · dsimp only
          rw [setValue_protocol]
          split_ifs with io
          · rwa [io,setValue_io] at verdict
          · exact present
        · dsimp only
          rw [setValue_size]
          split_ifs with buffer
          · rw [buffer,setValue_iobuffer] at verdict
            exact of_decide_eq_true verdict
          · exact positive
    · rw [unchanged taken]
      exact ⟨present,positive,all⟩

end Run

/-! ## The factory -/

section Created
open IoParameters PredictionMethodFactory

variable {parameters : IoParameters}

private theorem construct_type :
    (PredictionMethodFactory.construct parameters).type = typeOf parameters.predictionMethod := by
  rw [PredictionMethodFactory.construct,setPredictionMethod]
  cases typeOf parameters.predictionMethod <;> rfl

private theorem toNat_ofInt (number : ℤ) : ((UInt32.ofInt number).toNat : ℤ) = number % 2 ^ 32 := by
  have below : (number % 2 ^ 32).toNat < 2 ^ 32 := by omega
  rw [UInt32.ofInt,UInt32.toNat_ofNat_of_lt' below]
  omega

/-- The options are faithful exactly if those that are tried are effective. -/
theorem options_faithful_iff (delims text : List Char) : Faithful delims text ↔ Effective delims text := by
  have type_eq : (PredictionMethodFactory.construct (IoParameters.construct delims text)).type =
      typeOf (methodAsked delims (options delims 9 text)) := by
    rw [construct_type]
    exact congrArg typeOf parsed_method
  have predictor_eq : createPredictor (IoParameters.construct delims text).predictorType =
      predictorAsked delims (options delims 9 text) := parsed_predictor
  have fields : (∀ option ∈ options delims 9 text, Spares delims "io" option ∧ Spares delims "iobuffer" option) →
      (IoParameters.construct delims text).protocol = protocolAsked delims (options delims 9 text) ∧
      (IoParameters.construct delims text).predictionMethodBufferSize =
        UInt32.ofInt (sizeAsked delims (options delims 9 text)) := fun spares =>
    ⟨parsed_protocol fun option member => (spares option member).1,
      parsed_size fun option member => (spares option member).2⟩
  constructor
  · intro faithful
    obtain ⟨-,-,spares⟩ := spares_of_kept faithful.kept
    obtain ⟨protocol,size⟩ := fields spares
    obtain ⟨type,asked,initialised⟩ := faithful.method
    exact {
      rejected := fun option member rejected value =>
        ⟨(spares option member).1 rejected value,(spares option member).2 rejected value⟩
      protocol := protocol.symm.trans faithful.protocol
      predictor := predictor_eq.symm.trans faithful.predictor
      method := (type_eq.symm.trans initialised).trans asked.symm
      known := by rw [asked]; exact Option.some_ne_none type
      states := fun number found => (faithful.states number found).symm
      size := by
        rw [← toNat_ofInt,← size]
        exact faithful.size }
  · intro effective
    have spares : ∀ option ∈ options delims 9 text, Spares delims "io" option ∧ Spares delims "iobuffer" option :=
      fun option member => ⟨fun rejected value => (effective.rejected option member rejected value).1,
        fun rejected value => (effective.rejected option member rejected value).2⟩
    have kept : ∀ before option after, options delims 9 text = before ++ option :: after → ¬accepted delims option →
        ((parsed delims before).parseOption delims option).2 = parsed delims before := by
      intro before option after split rejected
      have member : option ∈ options delims 9 text := by simp [split]
      exact rejected_unchanged rejected (spares option member).1 (spares option member).2 _
    obtain ⟨present,positive,-⟩ := spares_of_kept kept
    obtain ⟨protocol,size⟩ := fields spares
    obtain ⟨type,known⟩ := Option.ne_none_iff_exists'.mp effective.known
    exact {
      protocol := protocol.trans effective.protocol
      predictor := predictor_eq.trans effective.predictor
      method := ⟨type,known,type_eq.trans (effective.method.trans known)⟩
      states := fun number found => (effective.states number found).symm
      size := by
        rw [← effective.size,← toNat_ofInt,← size]
        rfl
      kept
      positive
      present }

/-- The size 0 is rejected, and stored. -/
theorem rejected_size_stored : ¬Faithful "| ".toList "iobuffer-0".toList := fun faithful =>
  absurd faithful.positive (by decide)

/-- Four accepted options. -/
example : Effective "| ".toList "io-lax|iobuffer-64 iolevel-global|io-serial".toList where
  rejected := fun option member rejected =>
    absurd ((show ∀ option ∈ IoParameters.options "| ".toList 9 "io-lax|iobuffer-64 iolevel-global|io-serial".toList,
      accepted "| ".toList option by decide) option member) rejected
  protocol := by decide
  predictor := by decide
  method := by decide
  known := by decide
  states := fun _ found => by
    have none : statesOf (methodAsked "| ".toList (IoParameters.options "| ".toList 43
      "io-lax|iobuffer-64 iolevel-global|io-serial".toList)) = .none := by decide
    cases none.symm.trans found
  size := by decide

end Created

end Vexjine.IoOptions
