import Vexjine.Loops
import Vexjine.JmtProbabilities

/-!
# Networks of JMT documents

The parser makes the nodes of the network, and then links each of them to the targets of its connections. Nodes are
found by their names; of several with one name the first is.
-/

namespace Vexjine.JmtNetworks
open XmlPointers JmtStations DiscreteSamplers JmtProbabilities

/-! ## Links -/

/-- `earth` is the link that the constructor of a node sets: nothing leaves the network there. -/
inductive Link where
  | earth
  | link (n : NodeInformation)
  | branch (arrays : ProbabilisticBranch)

namespace Link

/-- The nodes that a link may lead to. -/
def nodes : Link → List NodeInformation
  | earth => []
  | link n => [n]
  | branch arrays => arrays.nodes.filterMap id

def probability (target : String) : Link → ℚ
  | earth => 0
  | link n => if n.name = target then 1 else 0
  | branch arrays => ((arrays.probs.zip arrays.nodes).map fun pair => match pair with
    | (some prob,some node) => if node.name = target then prob else 0
    | _ => 0).sum

variable (round : ℚ → ℚ)

/-- Where a customer is sent for a random number. -/
def move (r : ℚ) (link : Link) : Except Failure (Option NodeInformation) := match link with
  | earth => .ok none
  | .link n => .ok (some n)
  | branch arrays => do
    let node ← arrays.move round r
    .ok (some node)

end Link

/-! ## The parser -/

namespace JmtNetworkParser

/-- The nodes that were added to the network, and the map of them by their names. -/
structure Network where
  nodes : List NodeInformation
  nodeNamesToNodes : List NodeInformation

def parseNode (useOriginalCinqsDataStructures : Bool) (customerClasses : ℕ) (network : Network) (node : Pointer) :
    Except Failure Network := do
  let (name,newNode) ← JmtNodeParser.extractCinqsNodeTo node useOriginalCinqsDataStructures customerClasses
  match newNode with
  | none => .error .nullPointer
  | some _ =>
    let information := ⟨network.nodes.length,name,node⟩
    .ok ⟨network.nodes ++ [information],FirstWins.insert NodeInformation.name network.nodeNamesToNodes information⟩

variable (round : ℚ → ℚ) (nodeNamesToNodes : List NodeInformation)

/-- The body of the loop over the connections: the last target, and the number of targets. -/
def connect (nodeName : String) (state : Option NodeInformation × ℕ) (node : Pointer) :
    Except Failure (Option NodeInformation × ℕ) := do
  let source ← Attribute "source" node
  let source ← required source
  if nodeName = source then
    let target ← Attribute "target" node
    let target ← required target
    let targetNode ← find nodeNamesToNodes target
    .ok (some targetNode,state.2 + 1)
  else .ok state

/-- The link that is set for a node. -/
def setLink (simNode : List Node) (n : NodeInformation) : Except Failure Link := do
  let (targetNode,targetNodesTotal) ← (places "connection" simNode).foldlM (connect nodeNamesToNodes n.name) (none,0)
  if targetNodesTotal = 1 then
    match targetNode with
    | none => .error .nullPointer
    | some targetNode => .ok (.link targetNode)
  else if targetNodesTotal ≠ 0 then
    let branch ← JmtProbabilitiesParser.parseProbabilisticBranch round nodeNamesToNodes n.jmtNode targetNodesTotal
    match branch with
    | none => .error .nullPointer
    | some branch => .ok (.branch branch)
  else .ok .earth

/-- The nodes of the network with their links. The order of the map makes no difference to the links; here it is that of
    the document. -/
def parseNetwork (useOriginalCinqsDataStructures : Bool) (simNode : List Node) :
    Except Failure (List (NodeInformation × Link)) :=
  if places "node" simNode = [] then .error .nullPointer
  else do
    let classes := (places "userClass" simNode).length
    let network ← (places "node" simNode).foldlM (parseNode useOriginalCinqsDataStructures classes) ⟨[],[]⟩
    let links ← network.nodeNamesToNodes.mapM fun n => do
      let link ← setLink round network.nodeNamesToNodes simNode n
      .ok (n.id,link)
    .ok (network.nodes.map fun n => (n,(links.lookup n.id).getD .earth))

end JmtNetworkParser

/-! ## Documents -/

inductive Part where
  | station (it : RoutedStation)
  | connection (source target : String)
  | other (node : Node) (neither : node.value ≠ "node" ∧ node.value ≠ "connection")

namespace Part

def node : Part → Node
  | station it => it.node
  | connection source target => .element "connection" [("source",source),("target",target)] []
  | other node _ => node

def station? : Part → Option RoutedStation
  | station it => some it
  | _ => none

def target? (name : String) : Part → Option String
  | connection source target => if name = source then some target else none
  | _ => none

end Part

/-- What is in the `sim` element of a document. -/
abbrev Document := List Part

namespace Document

variable (round : ℚ → ℚ) (useOriginalCinqsDataStructures : Bool) (document : Document)

def simNode : List Node := document.map Part.node

def stations : List RoutedStation := document.filterMap Part.station?

def names : List String := document.stations.map RoutedStation.name

def customerClasses : ℕ := (places "userClass" document.simNode).length

/-- The targets of the connections of a station. -/
def targets (name : String) : List String := document.filterMap (Part.target? name)

/-- The link leads to the targets of the connections of the station and nowhere else, each class of customers has the
    probabilities of the document, and every random number leads somewhere. -/
def Leads (station : RoutedStation) (link : Link) : Prop :=
  (∀ target, target ∈ link.nodes.map NodeInformation.name ↔ target ∈ document.targets station.name) ∧
    (∀ strategy ∈ station.strategies, ∀ target ∈ document.targets station.name,
      link.probability target = strategy.2.given round (document.targets station.name) target) ∧
    ∀ r, Random round r → ∃ node, Link.move round r link = .ok node

/-- There is a network with a node for each station, the link of which leads where the document says. -/
def Faithful : Prop :=
  ∃ network, JmtNetworkParser.parseNetwork round useOriginalCinqsDataStructures document.simNode = .ok network ∧
    List.Forall₂ (fun station node => node.1.name = station.name ∧ document.Leads round station node.2)
      document.stations network

/-- The parser knows the kind of the station, and reads its service times. -/
def Made (customerClasses : ℕ) (station : RoutedStation) : Prop :=
  ∃ node, JmtNodeParser.extractCinqsNodeTo [station.node] useOriginalCinqsDataStructures customerClasses =
    .ok (station.name,some node)

/-- The first strategy with probabilities has entries for exactly the targets, not more of them than there are
    connections, its sums come to one, and the other classes have the same probabilities. -/
def Branches (station : RoutedStation) : Prop :=
  ∃ entries, Strategy.entries station.strategies = some entries ∧
    entries.length ≤ (document.targets station.name).length ∧
    (∀ target, target ∈ entries.map Entry.stationName ↔ target ∈ document.targets station.name) ∧
    Complete round (entries.map fun entry => atof round entry.probability) ∧
    ∀ strategy ∈ station.strategies, ∀ target ∈ document.targets station.name,
      strategy.2.given round (document.targets station.name) target =
        (Strategy.probabilities entries).given round (document.targets station.name) target

/-- A station with connections is the only one of its name, they lead to stations, and if there are several then there
    are probabilities for them. -/
def Routed (station : RoutedStation) : Prop :=
  document.targets station.name = [] ∨
    document.names.count station.name = 1 ∧ (∀ target ∈ document.targets station.name, target ∈ document.names) ∧
      if (document.targets station.name).length = 1 then
        ∀ strategy ∈ station.strategies, ∀ target ∈ document.targets station.name,
          strategy.2.given round (document.targets station.name) target = 1
      else document.Branches round station

end Document

/-! ## The nodes -/

section Nodes

variable {useOriginalCinqsDataStructures : Bool} {customerClasses : ℕ}

/-- What is made of a node does not depend on its siblings. -/
theorem extractCinqsNodeTo_cons (node : Node) (siblings : List Node) :
    JmtNodeParser.extractCinqsNodeTo (node :: siblings) useOriginalCinqsDataStructures customerClasses =
      JmtNodeParser.extractCinqsNodeTo [node] useOriginalCinqsDataStructures customerClasses := by
  have attribute' (name : String) : Attribute name (node :: siblings) = Attribute name [node] := by
    cases node <;> rfl
  have firstChild (name : String) : FirstChild name (node :: siblings) = FirstChild name [node] := rfl
  simp only [JmtNodeParser.extractCinqsNodeTo,JmtNodeParser.nodeFactory,JmtNodeParser.isDelay,
    JmtNodeParser.isRoutingStation,JmtNodeParser.isServer,getLowerLevelNodeWith_cons,attribute',firstChild]

/-- A node has the name of its station. -/
theorem name_of_extracted {station : RoutedStation} {name : String} {node : Option CinqsNode}
    (extracted : JmtNodeParser.extractCinqsNodeTo [station.node] useOriginalCinqsDataStructures customerClasses =
      .ok (name,node)) :
    name = station.name := by
  have named : Attribute "name" [station.node] = .ok (some station.name) := by
    simp [Attribute,RoutedStation.node]
  rw [JmtNodeParser.extractCinqsNodeTo,named] at extracted
  simp only [FallibleLoops.bind_ok_iff,required,Except.ok.injEq,exists_eq_left'] at extracted
  obtain ⟨_,-,_,-,_,-,_,-,same⟩ := extracted
  exact (Prod.mk.inj same).1.symm

/-- The nodes that are made of the parts of a document. -/
def informations : ℕ → Document → List NodeInformation
  | _,[] => []
  | id,.station it :: parts => ⟨id,it.name,it.node :: parts.map Part.node⟩ :: informations (id + 1) parts
  | id,.connection _ _ :: parts => informations id parts
  | id,.other _ _ :: parts => informations id parts

theorem parseNode_ok_iff (network result : JmtNetworkParser.Network) (station : RoutedStation) (siblings : List Node) :
    JmtNetworkParser.parseNode useOriginalCinqsDataStructures customerClasses network (station.node :: siblings) =
        .ok result ↔
      Document.Made useOriginalCinqsDataStructures customerClasses station ∧
        result = ⟨network.nodes ++ [⟨network.nodes.length,station.name,station.node :: siblings⟩],
          FirstWins.insert NodeInformation.name network.nodeNamesToNodes
            ⟨network.nodes.length,station.name,station.node :: siblings⟩⟩ := by
  rw [JmtNetworkParser.parseNode,extractCinqsNodeTo_cons,FallibleLoops.bind_ok_iff]
  constructor
  · rintro ⟨⟨name,node⟩,extracted,made⟩
    obtain rfl := name_of_extracted extracted
    cases node with
    | none => simp at made
    | some node => exact ⟨⟨node,extracted⟩,(Except.ok.inj made).symm⟩
  · rintro ⟨⟨node,extracted⟩,rfl⟩
    exact ⟨_,extracted,rfl⟩

/-- The loop over the nodes adds all of them, if each of them can be made. -/
theorem parseNodes_ok_iff (useOriginalCinqsDataStructures : Bool) (customerClasses : ℕ) (parts : Document)
    (network result : JmtNetworkParser.Network) :
    (places "node" (parts.map Part.node)).foldlM
        (JmtNetworkParser.parseNode useOriginalCinqsDataStructures customerClasses) network = .ok result ↔
      (∀ station ∈ parts.stations, Document.Made useOriginalCinqsDataStructures customerClasses station) ∧
        result = ⟨network.nodes ++ informations network.nodes.length parts,
          (informations network.nodes.length parts).foldl (FirstWins.insert NodeInformation.name)
            network.nodeNamesToNodes⟩ := by
  induction parts generalizing network with
  | nil => simp [places,informations,Document.stations,pure,Except.pure,eq_comm]
  | cons part parts ih =>
    cases part with
    | station it =>
      have first : places "node" ((Part.station it :: parts).map Part.node) =
          (it.node :: parts.map Part.node) :: places "node" (parts.map Part.node) := rfl
      have stations : Document.stations (Part.station it :: parts) = it :: Document.stations parts := rfl
      rw [first,FallibleLoops.cons_ok_iff,stations,List.forall_mem_cons]
      simp only [parseNode_ok_iff]
      constructor
      · rintro ⟨_,⟨made,rfl⟩,ended⟩
        obtain ⟨others,rfl⟩ := (ih _).mp ended
        exact ⟨⟨made,others⟩,by simp [informations]⟩
      · rintro ⟨⟨made,others⟩,rfl⟩
        exact ⟨_,⟨made,rfl⟩,(ih _).mpr ⟨others,by simp [informations]⟩⟩
    | connection source target => exact ih network
    | other node neither =>
      have skipped : places "node" ((Part.other node neither :: parts).map Part.node) =
          places "node" (parts.map Part.node) := if_neg neither.1
      rw [skipped]
      exact ih network

theorem ids_informations (parts : Document) (id : ℕ) :
    (informations id parts).map NodeInformation.id = List.range' id (informations id parts).length := by
  induction parts generalizing id with
  | nil => rfl
  | cons part parts ih =>
    cases part with
    | station it => simp [informations,ih,List.range'_succ]
    | connection source target => exact ih id
    | other node neither => exact ih id

/-- A node with the name of a station was made of the station. -/
def MadeOf (station : RoutedStation) (n : NodeInformation) : Prop :=
  n.name = station.name ∧ ∃ siblings, n.jmtNode = station.node :: siblings

theorem madeOf_informations (parts : Document) (id : ℕ) : List.Forall₂ MadeOf parts.stations (informations id parts) := by
  induction parts generalizing id with
  | nil => exact .nil
  | cons part parts ih =>
    cases part with
    | station it => exact .cons ⟨rfl,_,rfl⟩ (ih (id + 1))
    | connection source target => exact ih id
    | other node neither => exact ih id

end Nodes

/-! ## The links -/

section Links

variable {round : ℚ → ℚ} {allNodes : List NodeInformation}

/-- The nodes that the names lead to. -/
def Found (allNodes : List NodeInformation) : List String → List NodeInformation → Prop :=
  List.Forall₂ fun name n => find allNodes name = .ok n

theorem connect_ok_iff (name source target : String) (siblings : List Node)
    (state result : Option NodeInformation × ℕ) :
    JmtNetworkParser.connect allNodes name state ((Part.connection source target).node :: siblings) = .ok result ↔
      if name = source then ∃ n, find allNodes target = .ok n ∧ result = (some n,state.2 + 1) else result = state := by
  have sources : Attribute "source" ((Part.connection source target).node :: siblings) = .ok (some source) := by
    simp [Attribute,Part.node]
  have targets : Attribute "target" ((Part.connection source target).node :: siblings) = .ok (some target) := by
    have different : ("target" == "source") = false := by decide
    simp [Attribute,Part.node,List.lookup_cons,different]
  have read : JmtNetworkParser.connect allNodes name state ((Part.connection source target).node :: siblings) =
      if name = source then do
        let targetNode ← find allNodes target
        .ok (some targetNode,state.2 + 1)
      else .ok state := by
    rw [JmtNetworkParser.connect,sources,targets]
    rfl
  rw [read]
  by_cases same : name = source
  · rw [if_pos same,if_pos same,FallibleLoops.bind_ok_iff]
    simp only [Except.ok.injEq,eq_comm]
  · rw [if_neg same,if_neg same,Except.ok.injEq,eq_comm]

/-- The loop over the connections counts the targets of a station, all of which are found. -/
theorem connections_ok_iff (allNodes : List NodeInformation) (name : String) (parts : Document) (state result : Option NodeInformation × ℕ) :
    (places "connection" (parts.map Part.node)).foldlM (JmtNetworkParser.connect allNodes name) state = .ok result ↔
      ∃ targets, Found allNodes (parts.targets name) targets ∧
        result = (targets.foldl (fun _ n => some n) state.1,state.2 + targets.length) := by
  induction parts generalizing state with
  | nil =>
    constructor
    · intro ended
      exact ⟨[],.nil,(Except.ok.inj ended).symm⟩
    · rintro ⟨_,⟨⟩,rfl⟩
      rfl
  | cons part parts ih =>
    cases part with
    | station it => exact ih state
    | other node neither =>
      have skipped : places "connection" ((Part.other node neither :: parts).map Part.node) =
          places "connection" (parts.map Part.node) := if_neg neither.2
      rw [skipped]
      exact ih state
    | connection source target =>
      have first : places "connection" ((Part.connection source target :: parts).map Part.node) =
          ((Part.connection source target).node :: parts.map Part.node) :: places "connection" (parts.map Part.node) := rfl
      rw [first,FallibleLoops.cons_ok_iff]
      simp only [connect_ok_iff]
      by_cases same : name = source
      · have targets : Document.targets (Part.connection source target :: parts) name =
            target :: Document.targets parts name := by
          simp [Document.targets,Part.target?,same]
        rw [targets]
        simp only [if_pos same]
        constructor
        · rintro ⟨_,⟨n,found,rfl⟩,ended⟩
          obtain ⟨others,allFound,rfl⟩ := (ih _).mp ended
          exact ⟨n :: others,.cons found allFound,by simp [Nat.add_assoc,Nat.add_comm 1]⟩
        · rintro ⟨_,allFound,rfl⟩
          cases allFound with
          | cons found allFound =>
            exact ⟨_,⟨_,found,rfl⟩,(ih _).mpr ⟨_,allFound,by simp [Nat.add_assoc,Nat.add_comm 1]⟩⟩
      · have targets : Document.targets (Part.connection source target :: parts) name =
            Document.targets parts name := by
          simp [Document.targets,Part.target?,same]
        rw [targets]
        simp only [if_neg same,exists_eq_left]
        exact ih state

theorem name_of_found {name : String} {n : NodeInformation} (found : find allNodes name = .ok n) : n.name = name := by
  rw [find] at found
  cases sought : allNodes.find? fun node => node.name = name with
  | none => simp [sought] at found
  | some first =>
    rw [sought] at found
    obtain rfl := Except.ok.inj found
    simpa using List.find?_some sought

theorem found_iff (name : String) : (∃ n, find allNodes name = .ok n) ↔ name ∈ allNodes.map NodeInformation.name := by
  rw [find]
  cases sought : allNodes.find? fun node => node.name = name with
  | none =>
    have absent := List.find?_eq_none.mp sought
    simpa using absent
  | some first =>
    have present := List.mem_of_find?_eq_some sought
    have named : first.name = name := by simpa using List.find?_some sought
    simp only [Except.ok.injEq,exists_eq',true_iff]
    exact named ▸ List.mem_map_of_mem present

theorem names_of_found {names : List String} {targets : List NodeInformation} (found : Found allNodes names targets) :
    targets.map NodeInformation.name = names := by
  induction found with
  | nil => rfl
  | cons first _ ih => rw [List.map_cons,name_of_found first,ih]

theorem all_found_iff (names : List String) :
    (∃ targets, Found allNodes names targets) ↔ ∀ name ∈ names, name ∈ allNodes.map NodeInformation.name := by
  induction names with
  | nil => exact ⟨fun _ => by simp,fun _ => ⟨[],.nil⟩⟩
  | cons name names ih =>
    rw [List.forall_mem_cons,← ih,← found_iff]
    constructor
    · rintro ⟨_,found⟩
      cases found with
      | cons first rest => exact ⟨⟨_,first⟩,_,rest⟩
    · rintro ⟨⟨n,first⟩,targets,rest⟩
      exact ⟨n :: targets,.cons first rest⟩

theorem nodes_branch (targets : List (NodeInformation × ℚ)) (room : ℕ) :
    (Link.branch (.ofTargets targets room)).nodes = targets.map Prod.fst := by
  simp [Link.nodes,ProbabilisticBranch.ofTargets,filled]

theorem probability_branch (targets : List (NodeInformation × ℚ)) (room : ℕ) (target : String) :
    (Link.branch (.ofTargets targets room)).probability target =
      (targets.map fun pair => if pair.1.name = target then pair.2 else 0).sum := by
  have zipped : (filled (targets.map Prod.snd) room).zip (filled (targets.map Prod.fst) room) =
      (targets.map fun pair => (some pair.2,some pair.1)) ++ List.replicate room (none,none) := by
    rw [filled,filled,List.zip_append (by simp),List.zip_replicate']
    congr 1
    rw [List.map_map,List.map_map,List.zip_map']
    rfl
  rw [Link.probability,ProbabilisticBranch.ofTargets,zipped]
  simp [Function.comp_def]

/-- A random number leads somewhere when it is not above one of the sums. -/
theorem move_branch_iff {targets : List (NodeInformation × ℚ)} (someTarget : targets ≠ []) (room : ℕ) :
    (∀ r, Random round r → ∃ node, Link.move round r (.branch (.ofTargets targets room)) = .ok node) ↔
      Complete round (targets.map Prod.snd) := by
  rw [← always_drawn_iff (by simpa using someTarget) room]
  refine forall₂_congr fun r _ => ?_
  constructor
  · rintro ⟨node,moved⟩
    obtain ⟨n,branched,-⟩ := FallibleLoops.bind_ok_iff.mp moved
    rw [ProbabilisticBranch.move] at branched
    cases drawn : next round (filled (targets.map Prod.snd) room) r with
    | none => simp [ProbabilisticBranch.ofTargets,drawn] at branched
    | some index => exact ⟨index,rfl⟩
  · rintro ⟨index,drawn⟩
    have inside : index < targets.length := by simpa using next_lt drawn
    refine ⟨some targets[index].1,FallibleLoops.bind_ok_iff.mpr ⟨targets[index].1,?_,rfl⟩⟩
    have written : (filled (targets.map Prod.fst) room)[index]? = _ := getElem?_filled (by simpa using inside) room
    simp only [ProbabilisticBranch.move,ProbabilisticBranch.ofTargets,drawn,written,List.getElem_map]

/-- The targets of the entries have their names, and the probabilities of the document. -/
theorem given_of_resolved {entries : List Entry} {targets : List (NodeInformation × ℚ)}
    (resolved : JmtProbabilitiesParser.Resolved round allNodes entries targets) :
    targets.map (fun pair => pair.1.name) = entries.map Entry.stationName ∧
      targets.map Prod.snd = entries.map (fun entry => atof round entry.probability) ∧
      ∀ names target, (targets.map fun pair => if pair.1.name = target then pair.2 else 0).sum =
        (Strategy.probabilities entries).given round names target := by
  have both : targets.map (fun pair => (pair.1.name,pair.2)) =
      entries.map fun entry => (entry.stationName,atof round entry.probability) := by
    induction resolved with
    | nil => rfl
    | cons first _ ih => rw [List.map_cons,List.map_cons,ih,name_of_found first.1,first.2]
  refine ⟨?_,?_,fun names target => ?_⟩
  · simpa [Function.comp_def] using congrArg (List.map Prod.fst) both
  · simpa [Function.comp_def] using congrArg (List.map Prod.snd) both
  · have sums := congrArg (fun pairs => (pairs.map fun pair : String × ℚ => if pair.1 = target then pair.2 else 0).sum) both
    simpa [Function.comp_def,Strategy.given] using sums

/-- For several connections there have to be probabilities. -/
theorem branch_ok_iff (station : RoutedStation) (siblings : List Node) (total : ℕ) (result : Link) :
    (do
      let branch ← JmtProbabilitiesParser.parseProbabilisticBranch round allNodes (station.node :: siblings) total
      match branch with
      | none => .error .nullPointer
      | some branch => .ok (Link.branch branch)) = .ok result ↔
      ∃ entries targets room, Strategy.entries station.strategies = some entries ∧
        JmtProbabilitiesParser.Resolved round allNodes entries targets ∧ total = room + entries.length ∧ entries ≠ [] ∧
        result = .branch (.ofTargets targets room) := by
  rw [FallibleLoops.bind_ok_iff]
  cases given : Strategy.entries station.strategies with
  | none => simp [JmtProbabilitiesParser.parse_of_none given]
  | some entries =>
    simp only [JmtProbabilitiesParser.parse_of_some given]
    constructor
    · rintro ⟨_,⟨targets,room,resolved,enough,someEntry,rfl⟩,set⟩
      exact ⟨entries,targets,room,rfl,resolved,enough,someEntry,(Except.ok.inj set).symm⟩
    · rintro ⟨_,targets,room,same,resolved,enough,someEntry,rfl⟩
      obtain rfl := Option.some.inj same
      exact ⟨_,⟨targets,room,resolved,enough,someEntry,rfl⟩,rfl⟩

/-- The link that is set for a node: by the number of its connections, all of which lead to nodes. -/
theorem setLink_ok_iff {station : RoutedStation} {n : NodeInformation} (madeOf : MadeOf station n) (document : Document)
    (result : Link) :
    JmtNetworkParser.setLink round allNodes document.simNode n = .ok result ↔
      ∃ found, Found allNodes (document.targets station.name) found ∧ match found with
        | [] => result = .earth
        | [target] => result = .link target
        | _ => ∃ entries targets room, Strategy.entries station.strategies = some entries ∧
          JmtProbabilitiesParser.Resolved round allNodes entries targets ∧ found.length = room + entries.length ∧
          entries ≠ [] ∧ result = .branch (.ofTargets targets room) := by
  obtain ⟨named,siblings,jmtNode⟩ := madeOf
  rw [JmtNetworkParser.setLink,FallibleLoops.bind_ok_iff,named,jmtNode]
  have counted (final) : _ ↔ _ := connections_ok_iff allNodes station.name document (none,0) final
  constructor
  · rintro ⟨_,ended,set⟩
    obtain ⟨found,allFound,rfl⟩ := (counted _).mp ended
    refine ⟨found,allFound,?_⟩
    match found with
    | [] => exact (Except.ok.inj set).symm
    | [target] => exact (Except.ok.inj set).symm
    | first :: second :: others =>
      dsimp only at set
      rw [if_neg (by simp),if_pos (by simp),Nat.zero_add,branch_ok_iff] at set
      exact set
  · rintro ⟨found,allFound,set⟩
    refine ⟨_,(counted _).mpr ⟨found,allFound,rfl⟩,?_⟩
    match found with
    | [] => exact congrArg Except.ok set.symm
    | [target] => exact congrArg Except.ok set.symm
    | first :: second :: others =>
      dsimp only
      rw [if_neg (by simp),if_pos (by simp),Nat.zero_add,branch_ok_iff]
      exact set

theorem leads_earth_iff (document : Document) (station : RoutedStation) :
    document.Leads round station .earth ↔ document.targets station.name = [] := by
  constructor
  · rintro ⟨nodes,-,-⟩
    exact List.eq_nil_iff_forall_not_mem.mpr fun target member => by simpa [Link.nodes] using (nodes target).mpr member
  · intro none_given
    refine ⟨by simp [Link.nodes,none_given],by simp [none_given],fun r _ => ⟨none,rfl⟩⟩

theorem leads_link_iff {document : Document} {station : RoutedStation} {n : NodeInformation}
    (only : document.targets station.name = [n.name]) :
    document.Leads round station (.link n) ↔
      ∀ strategy ∈ station.strategies, ∀ target ∈ document.targets station.name,
        strategy.2.given round (document.targets station.name) target = 1 := by
  have probability : ∀ target ∈ document.targets station.name, (Link.link n).probability target = 1 := by
    intro target member
    rw [only,List.mem_singleton] at member
    exact if_pos member.symm
  constructor
  · rintro ⟨-,given,-⟩ strategy strategyMember target member
    rw [← given strategy strategyMember target member,probability target member]
  · intro given
    refine ⟨by simp [Link.nodes,only],fun strategy strategyMember target member => ?_,fun r _ => ⟨some n,rfl⟩⟩
    rw [given strategy strategyMember target member,probability target member]

theorem leads_branch_iff {document : Document} {station : RoutedStation} {entries : List Entry}
    {targets : List (NodeInformation × ℚ)} (resolved : JmtProbabilitiesParser.Resolved round allNodes entries targets)
    (someEntry : entries ≠ []) (room : ℕ) :
    document.Leads round station (.branch (.ofTargets targets room)) ↔
      (∀ target, target ∈ entries.map Entry.stationName ↔ target ∈ document.targets station.name) ∧
        Complete round (entries.map fun entry => atof round entry.probability) ∧
        ∀ strategy ∈ station.strategies, ∀ target ∈ document.targets station.name,
          strategy.2.given round (document.targets station.name) target =
            (Strategy.probabilities entries).given round (document.targets station.name) target := by
  obtain ⟨names,probs,given⟩ := given_of_resolved resolved
  have someTarget : targets ≠ [] := by
    rintro rfl
    cases resolved
    exact someEntry rfl
  have named : (targets.map Prod.fst).map NodeInformation.name = entries.map Entry.stationName := by
    rw [← names,List.map_map]
    rfl
  rw [Document.Leads,nodes_branch,named,move_branch_iff someTarget,probs]
  refine and_congr_right fun _ => and_comm.trans (and_congr_right fun _ => ?_)
  refine forall₄_congr fun strategy _ target _ => ?_
  rw [probability_branch,given (document.targets station.name)]
  exact eq_comm

theorem resolved_of_known (round : ℚ → ℚ) {entries : List Entry}
    (known : ∀ entry ∈ entries, entry.stationName ∈ allNodes.map NodeInformation.name) :
    ∃ targets, JmtProbabilitiesParser.Resolved round allNodes entries targets := by
  induction entries with
  | nil => exact ⟨[],.nil⟩
  | cons entry entries ih =>
    obtain ⟨n,found⟩ := (found_iff entry.stationName).mpr (known entry List.mem_cons_self)
    obtain ⟨targets,resolved⟩ := ih fun other member => known other (List.mem_cons_of_mem entry member)
    exact ⟨(n,atof round entry.probability) :: targets,.cons ⟨found,rfl⟩ resolved⟩

/-- When the link of a node is set, and leads where the document says. -/
theorem setLink_leads_iff {station : RoutedStation} {n : NodeInformation} (madeOf : MadeOf station n)
    (document : Document) :
    (∃ link, JmtNetworkParser.setLink round allNodes document.simNode n = .ok link ∧ document.Leads round station link) ↔
      document.targets station.name = [] ∨
        (∀ target ∈ document.targets station.name, target ∈ allNodes.map NodeInformation.name) ∧
          if (document.targets station.name).length = 1 then
            ∀ strategy ∈ station.strategies, ∀ target ∈ document.targets station.name,
              strategy.2.given round (document.targets station.name) target = 1
          else document.Branches round station := by
  simp only [setLink_ok_iff madeOf document]
  constructor
  · rintro ⟨link,⟨found,allFound,set⟩,leads⟩
    have names := names_of_found allFound
    have known := (all_found_iff _).mp ⟨found,allFound⟩
    match found with
    | [] => exact .inl names.symm
    | [target] =>
      obtain rfl := set
      refine .inr ⟨known,?_⟩
      rw [if_pos (by rw [← names]; rfl)]
      exact (leads_link_iff names.symm).mp leads
    | first :: second :: others =>
      obtain ⟨entries,targets,room,given,resolved,enough,someEntry,rfl⟩ := set
      refine .inr ⟨known,?_⟩
      rw [if_neg (by rw [← names]; simp)]
      obtain ⟨same,complete,classes⟩ := (leads_branch_iff resolved someEntry room).mp leads
      refine ⟨entries,given,?_,same,complete,classes⟩
      rw [← names,List.length_map,enough]
      exact Nat.le_add_left _ room
  · rintro (noTarget | ⟨known,rest⟩)
    · refine ⟨.earth,⟨[],?_,rfl⟩,(leads_earth_iff document station).mpr noTarget⟩
      rw [noTarget]
      exact .nil
    · obtain ⟨found,allFound⟩ := (all_found_iff _).mpr known
      have names := names_of_found allFound
      match found with
      | [] => exact ⟨.earth,⟨[],allFound,rfl⟩,(leads_earth_iff document station).mpr names.symm⟩
      | [target] =>
        rw [if_pos (by rw [← names]; rfl)] at rest
        exact ⟨.link target,⟨[target],allFound,rfl⟩,(leads_link_iff names.symm).mpr rest⟩
      | first :: second :: others =>
        rw [if_neg (by rw [← names]; simp)] at rest
        obtain ⟨entries,given,enough,same,complete,classes⟩ := rest
        obtain ⟨targets,resolved⟩ := resolved_of_known round fun entry member =>
          known _ ((same _).mp (List.mem_map_of_mem member))
        have someEntry : entries ≠ [] := by
          rintro rfl
          have member : first.name ∈ document.targets station.name := by simp [← names]
          simpa using (same first.name).mpr member
        rw [← names,List.length_map] at enough
        obtain ⟨room,enough⟩ := Nat.exists_eq_add_of_le' enough
        refine ⟨.branch (.ofTargets targets room),⟨_,allFound,entries,targets,room,given,resolved,enough,someEntry,rfl⟩,?_⟩
        exact (leads_branch_iff resolved someEntry room).mpr ⟨same,complete,classes⟩

end Links

/-! ## Networks -/

section Networks

variable {round : ℚ → ℚ} {useOriginalCinqsDataStructures : Bool} (document : Document)

/-- The nodes of the document, and the map of them by their names. -/
def allInformations : List NodeInformation := informations 0 document

def registered : List NodeInformation := (allInformations document).foldl (FirstWins.insert NodeInformation.name) []

theorem names_allInformations : (allInformations document).map NodeInformation.name = document.names := by
  have named := (madeOf_informations document 0).imp fun _ _ madeOf => madeOf.1
  rw [Document.names,← List.forall₂_eq_eq_eq,List.forall₂_map_left_iff,List.forall₂_map_right_iff]
  exact named.flip

theorem nodup_ids : ((allInformations document).map NodeInformation.id).Nodup := by
  rw [allInformations,ids_informations]
  exact List.nodup_range'

theorem eq_of_id {n other : NodeInformation} (member : n ∈ allInformations document)
    (otherMember : other ∈ allInformations document) (same : other.id = n.id) : other = n :=
  List.inj_on_of_nodup_map (nodup_ids document) otherMember member same

/-- A node is in the map when it is the first of its name. -/
theorem registered_iff (n : NodeInformation) :
    n ∈ registered document ↔ (allInformations document).find? (fun other => other.name = n.name) = some n := by
  simp [registered,FirstWins.mem_foldl_iff]

theorem mem_of_registered {n : NodeInformation} (member : n ∈ registered document) : n ∈ allInformations document :=
  List.mem_of_find?_eq_some ((registered_iff document n).mp member)

theorem names_registered (name : String) :
    name ∈ (registered document).map NodeInformation.name ↔ name ∈ document.names := by
  have same : find (registered document) name = find (allInformations document) name := by
    rw [find,registered,FirstWins.find?_foldl,List.nil_append,find]
  rw [← found_iff,same,found_iff,names_allInformations]

variable {document}

/-- The links by the numbers of their nodes. -/
def Linked (round : ℚ → ℚ) (document : Document) (links : List (ℕ × Link)) : Prop :=
  List.Forall₂ (fun n link => ∃ l,
    JmtNetworkParser.setLink round (registered document) document.simNode n = .ok l ∧ link = (n.id,l))
    (registered document) links

theorem lookup_linked {nodes : List NodeInformation} {links : List (ℕ × Link)} {set : NodeInformation → Link → Prop}
    (linked : List.Forall₂ (fun n link => ∃ l, set n l ∧ link = (n.id,l)) nodes links) (id : ℕ) :
    match links.lookup id with
    | none => ∀ n ∈ nodes, n.id ≠ id
    | some l => ∃ n ∈ nodes, n.id = id ∧ set n l := by
  induction linked with
  | nil => simp
  | @cons n link nodes links first _ ih =>
    obtain ⟨l,isSet,rfl⟩ := first
    by_cases same : id = n.id
    · obtain rfl := same
      have found : ((n.id,l) :: links).lookup n.id = some l := by simp
      rw [found]
      exact ⟨n,List.mem_cons_self,rfl,isSet⟩
    · have passed : ((n.id,l) :: links).lookup id = links.lookup id := by
        simp only [List.lookup_cons,beq_eq_false_iff_ne.mpr same]
      rw [passed]
      cases found : links.lookup id with
      | none =>
        rw [found] at ih
        exact List.forall_mem_cons.mpr ⟨Ne.symm same,ih⟩
      | some l' =>
        rw [found] at ih
        obtain ⟨other,member,rest⟩ := ih
        exact ⟨other,List.mem_cons_of_mem n member,rest⟩

/-- A node in the map has the link that was set. -/
theorem link_of_registered {links : List (ℕ × Link)} (linked : Linked round document links) {n : NodeInformation}
    (member : n ∈ registered document) :
    JmtNetworkParser.setLink round (registered document) document.simNode n = .ok ((links.lookup n.id).getD .earth) := by
  have looked := lookup_linked linked n.id
  cases found : links.lookup n.id with
  | none =>
    rw [found] at looked
    exact absurd rfl (looked n member)
  | some link =>
    rw [found] at looked
    obtain ⟨other,otherMember,same,set⟩ := looked
    obtain rfl := eq_of_id document (mem_of_registered document member) (mem_of_registered document otherMember) same
    exact set

/-- The others keep the link of the constructor. -/
theorem link_of_other {links : List (ℕ × Link)} (linked : Linked round document links) {n : NodeInformation}
    (member : n ∈ allInformations document) (other : n ∉ registered document) :
    (links.lookup n.id).getD .earth = .earth := by
  have looked := lookup_linked linked n.id
  cases found : links.lookup n.id with
  | none => rfl
  | some link =>
    rw [found] at looked
    obtain ⟨first,firstMember,same,-⟩ := looked
    obtain rfl := eq_of_id document member (mem_of_registered document firstMember) same
    exact absurd firstMember other

theorem places_eq_nil_iff (parts : Document) :
    places "node" (Document.simNode parts) = [] ↔ Document.stations parts = [] := by
  induction parts with
  | nil => simp [places,Document.simNode,Document.stations]
  | cons part parts ih =>
    cases part with
    | station it => exact iff_of_false (List.cons_ne_nil _ _) (List.cons_ne_nil _ _)
    | connection source target => exact ih
    | other node neither =>
      have skipped : places "node" (Document.simNode (Part.other node neither :: parts)) =
          places "node" (Document.simNode parts) := if_neg neither.1
      rw [skipped]
      exact ih

theorem parseNetwork_ok_iff (network : List (NodeInformation × Link)) :
    JmtNetworkParser.parseNetwork round useOriginalCinqsDataStructures document.simNode = .ok network ↔
      document.stations ≠ [] ∧
        (∀ station ∈ document.stations, Document.Made useOriginalCinqsDataStructures document.customerClasses station) ∧
        ∃ links, Linked round document links ∧
          network = (allInformations document).map fun n => (n,(links.lookup n.id).getD .earth) := by
  rw [JmtNetworkParser.parseNetwork]
  by_cases noStation : document.stations = []
  · rw [if_pos ((places_eq_nil_iff document).mpr noStation)]
    exact iff_of_false nofun fun parsed => parsed.1 noStation
  rw [if_neg (mt (places_eq_nil_iff document).mp noStation),FallibleLoops.bind_ok_iff]
  have parsed (result) : _ ↔ _ := parseNodes_ok_iff useOriginalCinqsDataStructures document.customerClasses document
    ⟨[],[]⟩ result
  have linked (links) : (registered document).mapM (fun n => do
      let link ← JmtNetworkParser.setLink round (registered document) document.simNode n
      .ok (n.id,link)) = .ok links ↔ Linked round document links := by
    have each (n : NodeInformation) (l : Link) (link : ℕ × Link) :
        (Except.ok (n.id,l) : Except Failure (ℕ × Link)) = .ok link ↔ link = (n.id,l) := by
      rw [Except.ok.injEq]
      exact eq_comm
    simp only [FallibleLoops.mapM_ok_iff,FallibleLoops.bind_ok_iff,each]
    rfl
  constructor
  · rintro ⟨result,ended,rest⟩
    obtain ⟨made,rfl⟩ := (parsed result).mp ended
    obtain ⟨links,mapped,same⟩ := FallibleLoops.bind_ok_iff.mp rest
    exact ⟨noStation,made,links,(linked links).mp mapped,(Except.ok.inj same).symm⟩
  · rintro ⟨-,made,links,allLinked,rfl⟩
    refine ⟨_,(parsed _).mpr ⟨made,rfl⟩,?_⟩
    exact FallibleLoops.bind_ok_iff.mpr ⟨links,(linked links).mpr allLinked,rfl⟩

/-- A node that is the only one of its name is in the map. -/
theorem registered_of_count {n : NodeInformation} (member : n ∈ allInformations document)
    (once : document.names.count n.name = 1) : n ∈ registered document := by
  rw [← names_allInformations] at once
  obtain ⟨item,-,-,only⟩ := (FirstWins.count_eq_one_iff (List.Nodup.of_map _ (nodup_ids document)) n.name).mp once
  rw [registered_iff]
  have found : ((allInformations document).find? fun other => other.name = n.name).isSome := by
    rw [List.find?_isSome]
    exact ⟨n,member,by simp⟩
  obtain ⟨first,found⟩ := Option.isSome_iff_exists.mp found
  have named : first.name = n.name := by simpa using List.find?_some found
  rw [found,only first (List.mem_of_find?_eq_some found) named,only n member rfl]

theorem eq_of_registered {n other : NodeInformation} (member : n ∈ registered document)
    (otherMember : other ∈ registered document) (same : other.name = n.name) : other = n := by
  rw [registered_iff] at member otherMember
  rw [same,member] at otherMember
  exact (Option.some.inj otherMember).symm

theorem exists_links {nodes : List NodeInformation} {set : NodeInformation → Link → Prop}
    (each : ∀ n ∈ nodes, ∃ l, set n l) : ∃ links, List.Forall₂ (fun n link => ∃ l, set n l ∧ link = (n.id,l)) nodes links := by
  induction nodes with
  | nil => exact ⟨[],.nil⟩
  | cons n nodes ih =>
    obtain ⟨l,isSet⟩ := each n List.mem_cons_self
    obtain ⟨links,linked⟩ := ih fun other member => each other (List.mem_cons_of_mem n member)
    exact ⟨(n.id,l) :: links,.cons ⟨l,isSet,rfl⟩ linked⟩

/-- The stations of a document with the nodes made of them. -/
def made (document : Document) : List (RoutedStation × NodeInformation) := document.stations.zip (allInformations document)

theorem madeOf_of_mem {pair : RoutedStation × NodeInformation} (member : pair ∈ made document) : MadeOf pair.1 pair.2 :=
  List.forall₂_zip (madeOf_informations document 0) member

theorem length_allInformations (document : Document) : document.stations.length = (allInformations document).length :=
  (madeOf_informations document 0).length_eq

theorem exists_made_of_station {station : RoutedStation} (member : station ∈ document.stations) :
    ∃ n, (station,n) ∈ made document := by
  have firsts : (made document).map Prod.fst = document.stations :=
    List.map_fst_zip (length_allInformations document).le
  obtain ⟨⟨_,n⟩,pair,rfl⟩ := List.mem_map.mp (firsts ▸ member)
  exact ⟨n,pair⟩

theorem exists_made_of_node {n : NodeInformation} (member : n ∈ allInformations document) :
    ∃ station, (station,n) ∈ made document := by
  have seconds : (made document).map Prod.snd = allInformations document :=
    List.map_snd_zip (length_allInformations document).ge
  obtain ⟨⟨station,_⟩,pair,rfl⟩ := List.mem_map.mp (seconds ▸ member)
  exact ⟨station,pair⟩

theorem set_of_routed {station : RoutedStation} {n : NodeInformation} (pair : (station,n) ∈ made document)
    (routed : document.Routed round station) :
    ∃ link, JmtNetworkParser.setLink round (registered document) document.simNode n = .ok link ∧
      document.Leads round station link := by
  rw [setLink_leads_iff (madeOf_of_mem pair)]
  refine routed.imp_right fun ⟨_,known,rest⟩ => ⟨fun target member => ?_,rest⟩
  exact (names_registered document target).mpr (known target member)

/-- A station with connections, the links of which lead where the document says, is routed. -/
theorem routed_of_leads {links : List (ℕ × Link)} (linked : Linked round document links)
    (leads : ∀ pair ∈ made document, document.Leads round pair.1 ((links.lookup pair.2.id).getD .earth))
    {station : RoutedStation} (member : station ∈ document.stations) : document.Routed round station := by
  by_cases noTarget : document.targets station.name = []
  · exact .inl noTarget
  -- The nodes with the name have connections, so that none of them keeps the link of the constructor.
  have inMap : ∀ pair ∈ made document, pair.1.name = station.name → pair.2 ∈ registered document := by
    intro pair pairMember same
    by_contra other
    have lead := leads pair pairMember
    rw [link_of_other linked (List.of_mem_zip pairMember).2 other,leads_earth_iff,same] at lead
    exact noTarget lead
  obtain ⟨n,pair⟩ := exists_made_of_station member
  have registered' := inMap _ pair rfl
  have set := (setLink_leads_iff (madeOf_of_mem pair) document).mp
    ⟨_,link_of_registered linked registered',leads _ pair⟩
  obtain ⟨known,rest⟩ := set.resolve_left noTarget
  refine .inr ⟨?_,fun target targetMember => (names_registered document target).mp (known target targetMember),rest⟩
  rw [← names_allInformations,FirstWins.count_eq_one_iff (List.Nodup.of_map _ (nodup_ids document))]
  refine ⟨n,(List.of_mem_zip pair).2,(madeOf_of_mem pair).1,fun other otherMember same => ?_⟩
  obtain ⟨otherStation,otherPair⟩ := exists_made_of_node otherMember
  have otherInMap := inMap _ otherPair ((madeOf_of_mem otherPair).1.symm.trans same)
  exact eq_of_registered registered' otherInMap (same.trans (madeOf_of_mem pair).1.symm)

theorem leads_of_routed {links : List (ℕ × Link)} (linked : Linked round document links)
    (routed : ∀ station ∈ document.stations, document.Routed round station) {pair : RoutedStation × NodeInformation}
    (member : pair ∈ made document) : document.Leads round pair.1 ((links.lookup pair.2.id).getD .earth) := by
  have routed := routed pair.1 (List.of_mem_zip member).1
  by_cases registered' : pair.2 ∈ registered document
  · obtain ⟨link,set,leads⟩ := set_of_routed member routed
    rw [link_of_registered linked registered'] at set
    exact Except.ok.inj set ▸ leads
  · rw [link_of_other linked (List.of_mem_zip member).2 registered',leads_earth_iff]
    refine routed.resolve_right fun ⟨once,_⟩ => registered' ?_
    rw [← (madeOf_of_mem member).1] at once
    exact registered_of_count (List.of_mem_zip member).2 once

theorem links_of_routed (routed : ∀ station ∈ document.stations, document.Routed round station) :
    ∃ links, Linked round document links := by
  refine exists_links fun n member => ?_
  obtain ⟨station,pair⟩ := exists_made_of_node (mem_of_registered document member)
  obtain ⟨link,set,-⟩ := set_of_routed pair (routed station (List.of_mem_zip pair).1)
  exact ⟨link,set⟩

variable (round document) in
/-- The nodes are linked as the document says exactly when there is one, all of them can be made, and each station is
    routed. -/
theorem linked_as_given_iff : document.Faithful round useOriginalCinqsDataStructures ↔
    document.stations ≠ [] ∧
      (∀ station ∈ document.stations, Document.Made useOriginalCinqsDataStructures document.customerClasses station) ∧
      ∀ station ∈ document.stations, document.Routed round station := by
  simp only [Document.Faithful,parseNetwork_ok_iff]
  constructor
  · rintro ⟨_,⟨someStation,allMade,links,linked,rfl⟩,leads⟩
    refine ⟨someStation,allMade,fun station member => routed_of_leads linked (fun pair pairMember => ?_) member⟩
    exact (List.forall₂_zip (List.forall₂_map_right_iff.mp leads) pairMember).2
  · rintro ⟨someStation,allMade,routed⟩
    obtain ⟨links,linked⟩ := links_of_routed routed
    refine ⟨_,⟨someStation,allMade,links,linked,rfl⟩,List.forall₂_map_right_iff.mpr ?_⟩
    refine List.forall₂_iff_zip.mpr ⟨length_allInformations document,fun pair => ?_⟩
    exact ⟨(madeOf_of_mem pair).1,leads_of_routed linked routed pair⟩

end Networks

/-- An entrance with connections to two exits, between which it chooses at random. -/
def twoExits : Document :=
  [.other (.element "userClass" [("name","Class0")] []) (by decide),
    .station ⟨"Entrance",[⟨"RandomSource",[]⟩],some [("Class0",.other "Random" (by decide))],by simp⟩,
    .station ⟨"Left",[⟨"JobSink",[]⟩],none,by simp⟩,.station ⟨"Right",[⟨"JobSink",[]⟩],none,by simp⟩,
    .connection "Entrance" "Left",.connection "Entrance" "Right"]

/-- The nodes can be made, but without probabilities there is no branch, and NULL is set as the link of the entrance. -/
theorem no_branch_between_exits : (∀ station ∈ twoExits.stations, Document.Made false twoExits.customerClasses station) ∧
    JmtNetworkParser.parseNetwork id false twoExits.simNode = .error .nullPointer ∧ ¬ twoExits.Faithful id false := by
  have failed : JmtNetworkParser.parseNetwork id false twoExits.simNode = .error .nullPointer := rfl
  refine ⟨fun station member => ?_,failed,?_⟩
  · fin_cases member
    · exact ⟨.source (some .exp),rfl⟩
    · exact ⟨.sink,rfl⟩
    · exact ⟨.sink,rfl⟩
  · rintro ⟨network,parsed,-⟩
    rw [failed] at parsed
    cases parsed

end Vexjine.JmtNetworks
