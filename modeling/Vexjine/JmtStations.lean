import Vexjine.Documents

/-!
# Stations of a JMT document

A node of the document has sections, the sections have parameters. The parser makes a node of the queueing network out
of it: the kind of the node, its queue, the number of its servers and the kinds of the distributions of its service
times. The numbers in these distributions are left out.
-/

namespace Vexjine.JmtStations
open DecimalLines XmlPointers

/-! ## The parser -/

def INT_MAX : ℤ := 2 ^ 31 - 1

/-- The node itself if it has the attribute, whatever its name is, or the next sibling of the name with the attribute. -/
def getSameLevelNodeWith (tagName elementType elementValue : String) : Pointer → Except Failure Pointer
  | [] => .ok []
  | node :: siblings => do
    let elementValueForType ← Attribute elementType (node :: siblings)
    if elementValueForType = some elementValue then .ok (node :: siblings)
    else namedWith tagName elementType elementValue siblings

def getLowerLevelNodeWith (originalNode : Pointer) (tagName elementType elementValue : String) : Except Failure Pointer :=
  if originalNode = [] then .ok [] else do
    let node ← FirstChild tagName originalNode
    getSameLevelNodeWith tagName elementType elementValue node

def isResourceConsumptionLocal (sectionNode : Pointer) : Except Failure Bool := do
  let parameterNode ← getLowerLevelNodeWith sectionNode "parameter" "name" "ServiceStrategy"
  let resourceConsumption ← Attribute "resourceConsumption" parameterNode
  .ok (resourceConsumption = some "Local")

/-! ### Service times -/

/-- The distributions that are read, without their numbers. -/
inductive DistributionSampler where
  | exp
  | normal
  deriving DecidableEq

/-- The first of the nodes with the name as its attribute. One before it without a name is a failure. -/
def subParameterNamed (name : String) : List Pointer → Except Failure Pointer
  | [] => .ok []
  | node :: later => do
    let found ← Attribute "name" node
    let found ← required found
    if found = name then .ok node else subParameterNamed name later

/-- Only whether the number can be read. It is 0 if there is none of the name. -/
def getDistributionParameter (node : Pointer) (parameterName : String) : Except Failure Unit := do
  let node ← FirstChild "subParameter" node
  if node = [] then .error .nullPointer
  else
    let node ← subParameterNamed parameterName (places "subParameter" node)
    if node = [] then .ok ()
    else
      let node ← FirstChild "value" node
      let text ← GetText node
      let _ ← required text
      .ok ()

/-- No distribution stands for NULL, which is also returned for those that are not supported. -/
def getDistribution (node : Pointer) : Except Failure (Option DistributionSampler) := do
  let node ← FirstChild "subParameter" node
  if node = [] then .ok none
  else
    let name ← Attribute "name" node
    let distributionType ← required name
    let node ← subParameterNamed "distrPar" (places "subParameter" node.tail)
    if node = [] then .error .nullPointer
    else if distributionType = "Exponential" then
      getDistributionParameter node "lambda"
      .ok (some .exp)
    else if distributionType = "Normal" then
      getDistributionParameter node "mean"
      getDistributionParameter node "standardDeviation"
      .ok (some .normal)
    else .ok none

/-- The node that the distributions of the customer classes start at. -/
def serviceTimeStrategy (originalNode : Pointer) : Except Failure Pointer := do
  let parameterNode ← getLowerLevelNodeWith originalNode "parameter" "name" "ServiceStrategy"
  getLowerLevelNodeWith parameterNode "subParameter" "name" "ServiceTimeStrategy"

def getServiceTimeDistribution (originalNode : Pointer) : Except Failure (Option DistributionSampler) := do
  let subparametersNode ← serviceTimeStrategy originalNode
  if subparametersNode = [] then .ok (some .exp) else getDistribution subparametersNode

inductive Delay where
  | delay (sampler : Option DistributionSampler)
  | classDependent (samplers : List DistributionSampler)
  deriving DecidableEq

/-- A queue that is first in, first out. The greatest `int` stands for no limit. -/
structure FIFOQueue where
  capacity : ℤ
  deriving DecidableEq

namespace JmtQueueParser

/-- The constructor. -/
def construct (_baseNode : Pointer) : Except Failure Pointer := getSameLevelNodeWith "section" "className" "Queue" _baseNode

def getSize (baseNode : Pointer) : Except Failure ℤ := do
  let sizeNode ← getSameLevelNodeWith "parameter" "name" "size" baseNode
  if sizeNode = [] then .ok (-1)
  else
    let node ← FirstChild "value" sizeNode
    if node = [] then .ok (-1)
    else
      let text ← GetText node
      let text ← required text
      .ok (atoi text.toList)

def getCinqsQueue (baseNode : Pointer) : Except Failure FIFOQueue :=
  if baseNode = [] then .ok ⟨INT_MAX⟩ else do
    let queueSize ← getSize baseNode
    let strategy ← getSameLevelNodeWith "parameter" "name" "FCFSstrategy" baseNode
    if strategy = [] then .ok ⟨INT_MAX⟩
    else if 0 < queueSize then .ok ⟨queueSize⟩
    else .ok ⟨INT_MAX⟩

end JmtQueueParser

/-- The classes of the nodes: the ones of the simulation library, and those of the network for I/O models, which may
    consume resources of the simulated process. -/
inductive Implementation where
  | cinqs
  | vex
  | vexLocal
  deriving DecidableEq

inductive CinqsNode where
  | infiniteServer (implementation : Implementation) (delay : Delay)
  | queueing (implementation : Implementation) (delay : Delay) (servers : ℤ) (queue : FIFOQueue)
  | source (sampler : Option DistributionSampler)
  | sink
  deriving DecidableEq

namespace JmtNodeParser

def getServers (_node : Pointer) : ℤ := 1

/-- A distribution is written to the array, which has a place for each class. -/
def store (customerClasses : ℕ) (distributionSamplers : List (Option DistributionSampler)) (node : Pointer) :
    Except Failure (List (Option DistributionSampler)) := do
  let sampler ← getDistribution node
  if distributionSamplers.length < customerClasses then .ok (distributionSamplers ++ [sampler]) else .error .pastTheEnd

/-- With several classes the kinds of all distributions are compared, so that each of them must have been written and
    not be NULL. Without any the first one is read, which is not there. -/
def getDelay (customerClasses : ℕ) (originalNode : Pointer) : Except Failure Delay :=
  if customerClasses = 1 then do
    let sampler ← getServiceTimeDistribution originalNode
    .ok (.delay sampler)
  else do
    let subparametersNode ← serviceTimeStrategy originalNode
    let distributionSamplers ← (places "subParameter" subparametersNode).foldlM (store customerClasses) []
    if customerClasses = 0 ∨ distributionSamplers.length < customerClasses then .error .pastTheEnd
    else if none ∈ distributionSamplers then .error .nullPointer
    else
      let samplers := distributionSamplers.reduceOption
      .ok (if ∀ first ∈ samplers, ∀ second ∈ samplers, first = second then .delay samplers.head?
        else .classDependent samplers)

variable (baseNode : Pointer) (useOriginalCinqsDataStructures : Bool) (customerClasses : ℕ)

def isServer : Except Failure Bool := do
  let node ← getLowerLevelNodeWith baseNode "section" "className" "Server"
  .ok (node ≠ [])

def isDelay : Except Failure Bool := do
  let node ← getLowerLevelNodeWith baseNode "section" "className" "Delay"
  .ok (node ≠ [])

def isRoutingStation : Except Failure Bool := do
  let node ← getLowerLevelNodeWith baseNode "section" "className" "Router"
  if node = [] then .ok false
  else
    let server ← isServer baseNode
    .ok (!server)

/-- The implementation of a node with the section. -/
def implementation (section' : Pointer) : Except Failure Implementation :=
  if useOriginalCinqsDataStructures then .ok .cinqs
  else do
    let resourceConsumptionLocal ← isResourceConsumptionLocal section'
    .ok (if resourceConsumptionLocal then .vexLocal else .vex)

/-- No node stands for NULL. -/
def nodeFactory (node : Pointer) (nodeType : String) : Except Failure (Option CinqsNode) :=
  if nodeType = "Queue" then do
    if ← isDelay baseNode then
      let delayNode ← getLowerLevelNodeWith baseNode "section" "className" "Delay"
      let implementation ← implementation useOriginalCinqsDataStructures delayNode
      let delay ← getDelay customerClasses delayNode
      .ok (some (.infiniteServer implementation delay))
    else if ← isRoutingStation baseNode then
      let parseQueue ← JmtQueueParser.construct node
      let queue ← JmtQueueParser.getCinqsQueue parseQueue
      .ok (some (.queueing .vexLocal (.delay (some .normal)) (INT_MAX.tdiv 2) queue))
    else
      let parseQueue ← JmtQueueParser.construct node
      let serverNode ← getLowerLevelNodeWith baseNode "section" "className" "Server"
      let implementation ← implementation useOriginalCinqsDataStructures serverNode
      let delay ← getDelay customerClasses serverNode
      let queue ← JmtQueueParser.getCinqsQueue parseQueue
      .ok (some (.queueing implementation delay (getServers serverNode) queue))
  else if "Source".toList <:+: nodeType.toList then do
    let sampler ← getServiceTimeDistribution node
    .ok (some (.source sampler))
  else if "Sink".toList <:+: nodeType.toList then .ok (some .sink)
  else .ok none

/-- The name of the node, and the node. -/
def extractCinqsNodeTo : Except Failure (String × Option CinqsNode) := do
  let name ← Attribute "name" baseNode
  let nodeName ← required name
  let node ← FirstChild "section" baseNode
  let className ← Attribute "className" node
  let nodeType ← required className
  let cinqsNode ← nodeFactory baseNode useOriginalCinqsDataStructures customerClasses node nodeType
  .ok (nodeName,cinqsNode)

end JmtNodeParser

/-! ## Queueing stations -/

structure Section where
  className : String
  parameters : List Node

def Section.node (section' : Section) : Node := .element "section" [("className",section'.className)] section'.parameters

/-- A station with a queue: the sections of its input, its service and its output. The service of a delay station and
    the tunnel of a routing station hold no customers in the queue. -/
structure Station where
  name : String
  queue : List Node
  service : Section
  output : List Section
  queueing : service.className ≠ "Delay" ∧ service.className ≠ "ServiceTunnel"
  oneService : ∀ section' ∈ output, section'.className ≠ "Server" ∧ section'.className ≠ "Delay"

namespace Station

variable (station : Station)

def sections : List Section := ⟨"Queue",station.queue⟩ :: station.service :: station.output

def node : Node := .element "node" [("name",station.name)] (station.sections.map Section.node)

/-- The parameter of a name among the parameters of a section. -/
def parameter (parameters : List Node) (name : String) : Option Node :=
  parameters.find? fun node => match node with
    | .element tag attributes _ => tag = "parameter" ∧ attributes.lookup "name" = some name
    | .text _ => false

def natural (text : List Char) : Option ℤ := if text ≠ [] ∧ text.all Char.isDigit then some (digits text) else none

def integer : List Char → Option ℤ
  | '-' :: text => (natural text).map fun value => -value
  | text => natural text

/-- The number in the value of a parameter. -/
def number (parameters : List Node) (name : String) : Option ℤ := do
  let parameter ← parameter parameters name
  match named "value" parameter.children with
  | .element _ _ (.text value :: _) :: _ => integer value.toList
  | _ => none

/-- The queue and the number of servers that the document gives. A size of -1 is none; other strategies than first come,
    first served are not supported, nor are other services than servers. -/
def given : Option (FIFOQueue × ℤ) := do
  let size ← number station.queue "size"
  let capacity ← if size = -1 then some INT_MAX else if 0 < size then some size else none
  let _ ← parameter station.queue "FCFSstrategy"
  let servers ← if station.service.className = "Server" then number station.service.parameters "maxJobs" else none
  if 0 < servers then some (⟨capacity⟩,servers) else none

/-- The node has the queue and the servers that the document gives; without them there is none. -/
def Faithful (useOriginalCinqsDataStructures : Bool) (customerClasses : ℕ) : Prop :=
  ∀ siblings, match station.given with
    | some (queue,servers) => ∃ implementation delay,
      JmtNodeParser.extractCinqsNodeTo (station.node :: siblings) useOriginalCinqsDataStructures customerClasses =
        .ok (station.name,some (.queueing implementation delay servers queue))
    | none => JmtNodeParser.extractCinqsNodeTo (station.node :: siblings) useOriginalCinqsDataStructures customerClasses =
      .ok (station.name,none)

end Station

/-! ## Searches -/

theorem getSameLevelNodeWith_named (tagName elementType elementValue : String) (nodes : List Node) :
    getSameLevelNodeWith tagName elementType elementValue (named tagName nodes) =
      namedWith tagName elementType elementValue nodes := by
  induction nodes with
  | nil => rfl
  | cons node siblings ih =>
    by_cases same : node.value = tagName
    · rw [named,List.dropWhile_cons_of_neg (by simpa using same),namedWith,if_pos same]
      rfl
    · rw [named,List.dropWhile_cons_of_pos (by simpa using same),namedWith,if_neg same]
      exact ih

/-- The children of a node are searched from the first of the name. -/
theorem getLowerLevelNodeWith_cons (node : Node) (siblings : List Node) (tagName elementType elementValue : String) :
    getLowerLevelNodeWith (node :: siblings) tagName elementType elementValue =
      namedWith tagName elementType elementValue node.children := by
  rw [getLowerLevelNodeWith,if_neg (List.cons_ne_nil _ _)]
  exact getSameLevelNodeWith_named tagName elementType elementValue node.children

namespace Station

variable (station : Station) (siblings : List Node)

theorem section_found (className : String) :
    getLowerLevelNodeWith (station.node :: siblings) "section" "className" className =
      .ok ((station.sections.dropWhile fun section' => section'.className ≠ className).map Section.node) := by
  rw [getLowerLevelNodeWith_cons]
  exact namedWith_elements station.sections

theorem not_isDelay : JmtNodeParser.isDelay (station.node :: siblings) = .ok false := by
  have absent : station.sections.dropWhile (fun section' => section'.className ≠ "Delay") = [] := by
    rw [List.dropWhile_eq_nil_iff]
    intro section' member
    rcases List.mem_cons.mp member with rfl | member
    · simp
    rcases List.mem_cons.mp member with rfl | member
    · simpa using station.queueing.1
    · simpa using (station.oneService section' member).2
  rw [JmtNodeParser.isDelay,section_found,absent]
  rfl

theorem server_found : getLowerLevelNodeWith (station.node :: siblings) "section" "className" "Server" =
    .ok (if station.service.className = "Server" then station.service.node :: station.output.map Section.node else []) := by
  rw [section_found,sections,List.dropWhile_cons_of_pos (by simp)]
  split
  case isTrue server =>
    rw [List.dropWhile_cons_of_neg (by simpa using server)]
    rfl
  case isFalse other =>
    rw [List.dropWhile_cons_of_pos (by simpa using other)]
    have absent : station.output.dropWhile (fun section' => section'.className ≠ "Server") = [] := by
      rw [List.dropWhile_eq_nil_iff]
      intro section' member
      simpa using (station.oneService section' member).1
    rw [absent]
    rfl

/-! ## The parsed node -/

/-- The parameters are searched among the sections, none of which is a parameter. -/
theorem no_parameter (name : String) :
    getSameLevelNodeWith "parameter" "name" name (station.sections.map Section.node) = .ok [] := by
  refine namedWith_of_absent fun node member => ?_
  obtain ⟨section',-,rfl⟩ := List.mem_map.mp member
  exact (by decide : "section" ≠ "parameter")

theorem queue_unlimited : JmtQueueParser.getCinqsQueue (station.sections.map Section.node) = .ok ⟨INT_MAX⟩ := by
  have size : JmtQueueParser.getSize (station.sections.map Section.node) = .ok (-1) := by
    rw [JmtQueueParser.getSize,no_parameter]
    rfl
  rw [JmtQueueParser.getCinqsQueue,if_neg (by simp [sections]),size,no_parameter]
  rfl

/-- The node that is made for a station with a queue. -/
theorem extracted (useOriginalCinqsDataStructures : Bool) (customerClasses : ℕ) :
    JmtNodeParser.extractCinqsNodeTo (station.node :: siblings) useOriginalCinqsDataStructures customerClasses = (do
      if ← JmtNodeParser.isRoutingStation (station.node :: siblings) then
        .ok (station.name,some (.queueing .vexLocal (.delay (some .normal)) (INT_MAX.tdiv 2) ⟨INT_MAX⟩))
      else
        let serverNode ← getLowerLevelNodeWith (station.node :: siblings) "section" "className" "Server"
        let implementation ← JmtNodeParser.implementation useOriginalCinqsDataStructures serverNode
        let delay ← JmtNodeParser.getDelay customerClasses serverNode
        .ok (station.name,some (.queueing implementation delay 1 ⟨INT_MAX⟩))) := by
  have named : Attribute "name" (station.node :: siblings) = .ok (some station.name) := by
    simp [Attribute,node]
  have first : FirstChild "section" (station.node :: siblings) = .ok (station.sections.map Section.node) := rfl
  have queue : Attribute "className" (station.sections.map Section.node) = .ok (some "Queue") := by
    simp [Attribute,sections,Section.node]
  have parseQueue : JmtQueueParser.construct (station.sections.map Section.node) =
      .ok (station.sections.map Section.node) := by
    simp [JmtQueueParser.construct,getSameLevelNodeWith,sections,Section.node,Attribute]
    rfl
  rw [JmtNodeParser.extractCinqsNodeTo,named,first]
  simp only [bind,Except.bind,required,queue,JmtNodeParser.nodeFactory,if_true,not_isDelay,parseQueue,queue_unlimited]
  cases JmtNodeParser.isRoutingStation (station.node :: siblings) with
  | error failure => rfl
  | ok routing =>
    cases routing with
    | true => rfl
    | false =>
      cases getLowerLevelNodeWith (station.node :: siblings) "section" "className" "Server" with
      | error failure => rfl
      | ok serverNode =>
        simp only [Bool.false_eq_true,if_false]
        cases JmtNodeParser.implementation useOriginalCinqsDataStructures serverNode with
        | error failure => rfl
        | ok implementation => cases JmtNodeParser.getDelay customerClasses serverNode <;> rfl

/-- With a server the node serves one customer, and its queue has no limit. -/
theorem extracted_server (server : station.service.className = "Server") (useOriginalCinqsDataStructures : Bool)
    (customerClasses : ℕ) :
    JmtNodeParser.extractCinqsNodeTo (station.node :: siblings) useOriginalCinqsDataStructures customerClasses = (do
      let implementation ← JmtNodeParser.implementation useOriginalCinqsDataStructures
        (station.service.node :: station.output.map Section.node)
      let delay ← JmtNodeParser.getDelay customerClasses (station.service.node :: station.output.map Section.node)
      .ok (station.name,some (.queueing implementation delay 1 ⟨INT_MAX⟩))) := by
  have found := station.server_found siblings
  rw [if_pos server] at found
  have isServer : JmtNodeParser.isServer (station.node :: siblings) = .ok true := by
    rw [JmtNodeParser.isServer,found]
    rfl
  have notRouting : JmtNodeParser.isRoutingStation (station.node :: siblings) = .ok false := by
    rw [JmtNodeParser.isRoutingStation,section_found,isServer]
    simp [bind,Except.bind]
  rw [extracted,notRouting,found]
  rfl

/-- A station is never left out: there is a node for it, or a failure. -/
theorem not_reported (useOriginalCinqsDataStructures : Bool) (customerClasses : ℕ) :
    JmtNodeParser.extractCinqsNodeTo (station.node :: siblings) useOriginalCinqsDataStructures customerClasses ≠
      .ok (station.name,none) := by
  rw [extracted]
  cases JmtNodeParser.isRoutingStation (station.node :: siblings) with
  | error failure => exact nofun
  | ok routing =>
    cases routing with
    | true => exact nofun
    | false =>
      simp only [bind,Except.bind,Bool.false_eq_true,if_false]
      cases getLowerLevelNodeWith (station.node :: siblings) "section" "className" "Server" with
      | error failure => exact nofun
      | ok serverNode =>
        cases implementation : JmtNodeParser.implementation useOriginalCinqsDataStructures serverNode with
        | error failure => simp [implementation]
        | ok implementation' =>
          cases delay : JmtNodeParser.getDelay customerClasses serverNode with
          | error failure => simp [implementation,delay]
          | ok delay' => simp [implementation,delay]

theorem server_of_given {queue : FIFOQueue} {servers : ℤ} (given : station.given = some (queue,servers)) :
    station.service.className = "Server" := by
  by_contra other
  simp [Station.given,other] at given

variable {station} {useOriginalCinqsDataStructures : Bool} {customerClasses : ℕ}

/-- The parameters of a section do not depend on the sections behind it. -/
theorem implementation_cons (section' : Section) :
    JmtNodeParser.implementation useOriginalCinqsDataStructures (section'.node :: siblings) =
      JmtNodeParser.implementation useOriginalCinqsDataStructures [section'.node] := by
  simp only [JmtNodeParser.implementation,isResourceConsumptionLocal,getLowerLevelNodeWith_cons]

theorem getDelay_cons (section' : Section) :
    JmtNodeParser.getDelay customerClasses (section'.node :: siblings) =
      JmtNodeParser.getDelay customerClasses [section'.node] := by
  simp only [JmtNodeParser.getDelay,getServiceTimeDistribution,serviceTimeStrategy,getLowerLevelNodeWith_cons]

theorem implementation_found_iff (section' : Pointer) :
    (∃ implementation, JmtNodeParser.implementation useOriginalCinqsDataStructures section' = .ok implementation) ↔
      useOriginalCinqsDataStructures = true ∨ ∃ isLocal, isResourceConsumptionLocal section' = .ok isLocal := by
  unfold JmtNodeParser.implementation
  cases useOriginalCinqsDataStructures with
  | true => simp
  | false => cases consumption : isResourceConsumptionLocal section' <;> simp [bind,Except.bind]

/-- The node of a station is the one that the document gives exactly when that has no limit and one server, the
    service strategy is found where it is asked for, and the service times can be read. -/
theorem as_given_iff : station.Faithful useOriginalCinqsDataStructures customerClasses ↔
    station.given = some (⟨INT_MAX⟩,1) ∧ (useOriginalCinqsDataStructures = true ∨
      ∃ isLocal, isResourceConsumptionLocal [station.service.node] = .ok isLocal) ∧
      ∃ delay, JmtNodeParser.getDelay customerClasses [station.service.node] = .ok delay := by
  rw [Faithful]
  cases given : station.given with
  | none => exact iff_of_false (fun faithful => station.not_reported [] _ _ (faithful [])) nofun
  | some parameters =>
    obtain ⟨queue,servers⟩ := parameters
    have extracted (siblings) := station.extracted_server siblings (station.server_of_given given)
      useOriginalCinqsDataStructures customerClasses
    simp only [implementation_cons,getDelay_cons] at extracted
    rw [← implementation_found_iff]
    constructor
    · intro faithful
      obtain ⟨implementation,delay,found⟩ := faithful []
      rw [extracted] at found
      cases made : JmtNodeParser.implementation useOriginalCinqsDataStructures [station.service.node] with
      | error failure => simp [made,bind,Except.bind] at found
      | ok implementation' =>
        cases read : JmtNodeParser.getDelay customerClasses [station.service.node] with
        | error failure => simp [made,read,bind,Except.bind] at found
        | ok delay' =>
          simp only [made,read,bind,Except.bind,Except.ok.injEq,Prod.mk.injEq,true_and,Option.some.injEq,
            CinqsNode.queueing.injEq] at found
          obtain ⟨-,-,rfl,rfl⟩ := found
          exact ⟨rfl,⟨implementation',rfl⟩,delay',rfl⟩
    · rintro ⟨unlimited,⟨implementation,made⟩,delay,read⟩ siblings
      obtain ⟨rfl,rfl⟩ : queue = ⟨INT_MAX⟩ ∧ servers = 1 := by simpa using unlimited
      refine ⟨implementation,delay,?_⟩
      rw [extracted,made,read]
      rfl

def parameterOf (name value : String) : Node := .element "parameter" [("name",name)] [.element "value" [] [.text value]]

/-- A queue for at most four customers before two servers. -/
def desk : Station where
  name := "Desk"
  queue := [parameterOf "size" "4",.element "parameter" [("name","FCFSstrategy")] []]
  service := ⟨"Server",[parameterOf "maxJobs" "2"]⟩
  output := []
  queueing := by decide
  oneService := by simp

/-- The queue of the node has no limit, and there is one server. -/
theorem desk_not_as_given : desk.given = some (⟨4⟩,2) ∧ ¬ desk.Faithful true 1 ∧
    JmtNodeParser.extractCinqsNodeTo [desk.node] true 1 =
      .ok ("Desk",some (.queueing .cinqs (.delay (some .exp)) 1 ⟨INT_MAX⟩)) := by
  have given : desk.given = some (⟨4⟩,2) := by decide
  have made := desk.extracted_server [] rfl true 1
  refine ⟨given,fun faithful => ?_,made⟩
  have found := faithful []
  rw [given] at found
  obtain ⟨implementation,delay,found⟩ := found
  rw [made] at found
  cases found

end Station

end Vexjine.JmtStations
