import Vexjine.Documents
import Vexjine.Loops
import Vexjine.JmtStations

/-!
# Probabilities of a JMT document

The router of a station has a routing strategy for each class of customers. The parser takes the first one with
probabilities, and makes a branch with a target for each of its entries.
-/

/-! ## Sampling by partial sums

An index is drawn as the first one whose sum of the probabilities up to it reaches a random number. The sums are
rounded. The array may be longer than what was written to it; the search reads no further than that. -/

namespace Vexjine.DiscreteSamplers

variable (round : ℚ → ℚ)

/-- The loop of `next`, with the probabilities behind the index. There is no index when it reads behind them, or what
    was never written. -/
def search (r : ℚ) : ℚ → ℕ → List (Option ℚ) → Option ℕ
  | acc,index,probs => if acc < r then
      match probs with
      | some prob :: probs => search r (round (acc + prob)) (index + 1) probs
      | _ => none
    else some index

/-- `next`, where `r` is the random number. -/
def next (probs : List (Option ℚ)) (r : ℚ) : Option ℕ :=
  match probs with
  | some prob :: probs => search round r prob 0 probs
  | _ => none

/-- The sums of the probabilities up to each index. -/
def sums : List ℚ → List ℚ
  | [] => []
  | prob :: probs => probs.scanl (fun acc prob => round (acc + prob)) prob

/-- An array of which the first values are written. -/
def filled {Value : Type*} (values : List Value) (room : ℕ) : List (Option Value) :=
  values.map some ++ List.replicate room none

theorem getElem?_filled {Value : Type*} {values : List Value} {index : ℕ} (inside : index < values.length) (room : ℕ) :
    (filled values room)[index]? = some (some values[index]) := by
  rw [filled,List.getElem?_append_left (by simpa using inside)]
  simp [inside]

/-- The numbers that may be drawn: the rounded ones from 0 and below 1. -/
def Random (r : ℚ) : Prop := 0 ≤ r ∧ r < 1 ∧ round r = r

/-- A sum is not below any random number. -/
def Complete (probs : List ℚ) : Prop := ∃ acc ∈ sums round probs, ∀ r, Random round r → r ≤ acc

variable {round} {r : ℚ}

theorem search_filled (probs : List ℚ) (room : ℕ) (acc : ℚ) (index : ℕ) :
    search round r acc index (filled probs room) =
      ((probs.scanl (fun acc prob => round (acc + prob)) acc).findIdx? fun acc => r ≤ acc).map fun k => index + k := by
  induction probs generalizing acc index with
  | nil =>
    have ended : search round r acc index (filled [] room) = if acc < r then none else some index := by
      cases room <;> rfl
    rw [ended,List.scanl_nil,List.findIdx?_singleton]
    rcases lt_or_ge acc r with below | reached
    · simp [below,not_le.mpr below]
    · simp [reached,not_lt.mpr reached]
  | cons prob probs ih =>
    have read : search round r acc index (filled (prob :: probs) room) =
        if acc < r then search round r (round (acc + prob)) (index + 1) (filled probs room) else some index := rfl
    rw [read,List.scanl_cons,List.findIdx?_cons,ih]
    rcases lt_or_ge acc r with below | reached
    · rw [if_pos below,if_neg (by simpa using below),Option.map_map]
      congr 1
      funext k
      exact Nat.add_right_comm index 1 k
    · simp [reached,not_lt.mpr reached]

/-- The index drawn is the first whose sum reaches the random number. -/
theorem next_filled (probs : List ℚ) (room : ℕ) :
    next round (filled probs room) r = (sums round probs).findIdx? fun acc => r ≤ acc := by
  cases probs with
  | nil => cases room <;> rfl
  | cons prob probs =>
    refine (search_filled probs room prob 0).trans ?_
    simp [sums]

theorem length_sums (round : ℚ → ℚ) (probs : List ℚ) : (sums round probs).length = probs.length := by
  cases probs with
  | nil => rfl
  | cons prob probs => simp [sums]

/-- What is drawn is an index of a probability that was written. -/
theorem next_lt {probs : List ℚ} {room index : ℕ} (drawn : next round (filled probs room) r = some index) :
    index < probs.length := by
  rw [next_filled] at drawn
  rw [← length_sums round]
  exact (List.findIdx?_eq_some_iff_getElem.mp drawn).1

theorem drawn_iff (probs : List ℚ) (room : ℕ) :
    (∃ index, next round (filled probs room) r = some index) ↔ ∃ acc ∈ sums round probs, r ≤ acc := by
  rw [← Option.isSome_iff_exists,next_filled,List.findIdx?_isSome]
  simp

/-- For every random number an index is drawn exactly when one of the sums reaches all of them. -/
theorem always_drawn_iff {probs : List ℚ} (some_prob : probs ≠ []) (room : ℕ) :
    (∀ r, Random round r → ∃ index, next round (filled probs room) r = some index) ↔ Complete round probs := by
  simp only [drawn_iff]
  constructor
  · intro reached
    have nonempty : (sums round probs).toFinset.Nonempty := by
      rw [List.toFinset_nonempty_iff,← List.length_pos_iff,length_sums]
      exact List.length_pos_iff.mpr some_prob
    obtain ⟨greatest,member,greater⟩ := (sums round probs).toFinset.exists_max_image id nonempty
    refine ⟨greatest,List.mem_toFinset.mp member,fun r random => ?_⟩
    obtain ⟨acc,accMember,le⟩ := reached r random
    exact le.trans (greater acc (List.mem_toFinset.mpr accMember))
  · rintro ⟨acc,member,reaches⟩ r random
    exact ⟨acc,member,reaches r random⟩

end Vexjine.DiscreteSamplers

namespace Vexjine.JmtProbabilities
open DecimalLines XmlPointers JmtStations DiscreteSamplers

/-! ## Numbers -/

def exponent (text : List Char) : ℤ := match text with
  | '-' :: rest => -digits rest
  | '+' :: rest => digits rest
  | rest => digits rest

/-- Digits, which may have a point among them, and an exponent. -/
def unsigned (text : List Char) : ℚ :=
  let whole := text.takeWhile Char.isDigit
  let (fraction,rest) := match text.dropWhile Char.isDigit with
    | '.' :: rest => (rest.takeWhile Char.isDigit,rest.dropWhile Char.isDigit)
    | rest => ([],rest)
  let scale := match rest with
    | 'e' :: rest => exponent rest
    | 'E' :: rest => exponent rest
    | _ => 0
  digits (whole ++ fraction) * 10 ^ (scale - fraction.length)

variable (round : ℚ → ℚ)

/-- `atof`: blanks, a sign and a decimal number. Hexadecimal numbers, infinities and those that are no numbers are left
    out. -/
def atof (text : String) : ℚ := round (match text.toList.dropWhile isspace with
  | '-' :: rest => -unsigned rest
  | '+' :: rest => unsigned rest
  | rest => unsigned rest)

/-! ## The parser -/

/-- A node of the network, with its number there. -/
structure NodeInformation where
  id : ℕ
  name : String
  jmtNode : Pointer

/-- What `find` leads to in the map of the nodes by their names. -/
def find (allNodes : List NodeInformation) (name : String) : Except Failure NodeInformation :=
  match allNodes.find? fun node => node.name = name with
  | none => .error .pastTheEnd
  | some node => .ok node

def write {Value : Type} (array : List (Option Value)) (index : ℕ) (value : Value) :
    Except Failure (List (Option Value)) :=
  if index < array.length then .ok (array.set index (some value)) else .error .pastTheEnd

/-- The arrays of a branch. -/
structure ProbabilisticBranch where
  probs : List (Option ℚ)
  nodes : List (Option NodeInformation)

namespace JmtProbabilitiesParser

variable (allNodes : List NodeInformation)

/-- Whether there is a target with a probability, and the arrays with it. -/
def getTargetNodeWithProbability (node : Pointer) (count : ℕ) (arrays : ProbabilisticBranch) :
    Except Failure (Bool × ProbabilisticBranch) := do
  let nameNode ← getLowerLevelNodeWith node "subParameter" "name" "stationName"
  if nameNode = [] then .ok (false,arrays)
  else
    let nameNode ← FirstChild "value" nameNode
    let text ← GetText nameNode
    let name ← required text
    let target ← find allNodes name
    let nodes ← write arrays.nodes count target
    let probNode ← getLowerLevelNodeWith node "subParameter" "name" "probability"
    if probNode = [] then .ok (false,{ arrays with nodes })
    else
      let probNode ← FirstChild "value" probNode
      let text ← GetText probNode
      let text ← required text
      let probs ← write arrays.probs count (atof round text)
      .ok (true,⟨probs,nodes⟩)

/-- The body of the loop over the entries. -/
def body (state : ProbabilisticBranch × ℕ) (node : Pointer) : Except Failure (ProbabilisticBranch × ℕ) := do
  let (found,arrays) ← getTargetNodeWithProbability round allNodes node state.2 state.1
  .ok (arrays,if found then state.2 + 1 else state.2)

/-- No branch stands for NULL. -/
def parseProbabilisticBranch (baseNode : Pointer) (totalTargets : ℕ) : Except Failure (Option ProbabilisticBranch) := do
  let node ← getLowerLevelNodeWith baseNode "section" "className" "Router"
  let node ← getLowerLevelNodeWith node "parameter" "name" "RoutingStrategy"
  let node ← getLowerLevelNodeWith node "subParameter" "name" "Probabilities"
  let node ← getLowerLevelNodeWith node "subParameter" "name" "EmpiricalEntryArray"
  match node with
  | [] => .ok none
  | array :: _ =>
    let start := ⟨List.replicate totalTargets none,List.replicate totalTargets none⟩
    let (branch,_) ← (places "subParameter" array.children).foldlM (body round allNodes) (start,0)
    -- The constructor asks the first node for its network.
    match branch.nodes with
    | some _ :: _ => .ok (some branch)
    | _ => .error .pastTheEnd

end JmtProbabilitiesParser

namespace ProbabilisticBranch

variable (branch : ProbabilisticBranch)

/-- The node that a customer is sent to for a random number. -/
def move (r : ℚ) : Except Failure NodeInformation :=
  match next round branch.probs r with
  | none => .error .pastTheEnd
  | some index => match branch.nodes[index]? with
    | some (some node) => .ok node
    | _ => .error .pastTheEnd

end ProbabilisticBranch

/-! ## Routing strategies -/

structure Entry where
  stationName : String
  probability : String

namespace Entry

def subParameter (name value : String) : Node :=
  .element "subParameter" [("name",name)] [.element "value" [] [.text value]]

def node (entry : Entry) : Node := .element "subParameter" [("name","EmpiricalEntry")]
  [subParameter "stationName" entry.stationName,subParameter "probability" entry.probability]

end Entry

inductive Strategy where
  | probabilities (entries : List Entry)
  | other (name : String) (without : name ≠ "Probabilities")

namespace Strategy

def node : Strategy → Node
  | probabilities entries => .element "subParameter" [("name","Probabilities")]
    [.element "subParameter" [("name","EmpiricalEntryArray")] (entries.map Entry.node)]
  | other name _ => .element "subParameter" [("name",name)] []

/-- The probability that the document gives to a target. Without probabilities the connections are equally likely. -/
def given (targets : List String) (target : String) : Strategy → ℚ
  | probabilities entries => (entries.map fun entry => if entry.stationName = target then atof round entry.probability else 0).sum
  | other _ _ => targets.count target / targets.length

/-- The strategies for the classes of customers. -/
def router (strategies : List (String × Strategy)) : Section := ⟨"Router",[.element "parameter" [("name","RoutingStrategy")]
  (strategies.flatMap fun (customerClass,strategy) => [.element "refClass" [] [.text customerClass],strategy.node])]⟩

/-- The entries of the first strategy with probabilities. -/
def entries : List (String × Strategy) → Option (List Entry)
  | [] => none
  | (_,probabilities entries) :: _ => some entries
  | _ :: strategies => entries strategies

end Strategy

/-- A station with its sections, and the strategies of its router if it has one. -/
structure RoutedStation where
  name : String
  sections : List Section
  router : Option (List (String × Strategy))
  noRouter : ∀ section' ∈ sections, section'.className ≠ "Router"

namespace RoutedStation

variable (station : RoutedStation)

def node : Node := .element "node" [("name",station.name)]
  ((station.sections ++ (station.router.map Strategy.router).toList).map Section.node)

def strategies : List (String × Strategy) := station.router.getD []

end RoutedStation

/-! ## The arrays -/

variable {round : ℚ → ℚ}

/-- The arrays with the targets and their probabilities, and room for more. -/
def ProbabilisticBranch.ofTargets (targets : List (NodeInformation × ℚ)) (room : ℕ) : ProbabilisticBranch :=
  ⟨filled (targets.map Prod.snd) room,filled (targets.map Prod.fst) room⟩

theorem write_filled {Value : Type} (values : List Value) (room : ℕ) (value : Value) (array : List (Option Value)) :
    write (filled values room) values.length value = .ok array ↔
      ∃ left, room = left + 1 ∧ array = filled (values ++ [value]) left := by
  cases room with
  | zero => simp [write,filled]
  | succ left =>
    have written : write (filled values (left + 1)) values.length value = .ok (filled (values ++ [value]) left) := by
      rw [write,if_pos (by simp [filled])]
      simp [filled,List.replicate_succ]
    rw [written]
    constructor
    · rintro same
      exact ⟨left,rfl,(Except.ok.inj same).symm⟩
    · rintro ⟨other,same,rfl⟩
      obtain rfl := Nat.succ.inj same
      rfl

variable {allNodes : List NodeInformation}

namespace JmtProbabilitiesParser

theorem getTargetNodeWithProbability_ok_iff (entry : Entry) (siblings : List Node) (count : ℕ)
    (arrays : ProbabilisticBranch) (result : Bool × ProbabilisticBranch) :
    getTargetNodeWithProbability round allNodes (entry.node :: siblings) count arrays = .ok result ↔
      ∃ target nodes probs, find allNodes entry.stationName = .ok target ∧ write arrays.nodes count target = .ok nodes ∧
        write arrays.probs count (atof round entry.probability) = .ok probs ∧ result = (true,⟨probs,nodes⟩) := by
  have stationName : getLowerLevelNodeWith (entry.node :: siblings) "subParameter" "name" "stationName" =
      .ok [Entry.subParameter "stationName" entry.stationName,Entry.subParameter "probability" entry.probability] := by
    rw [getLowerLevelNodeWith_cons]
    simp [Entry.node,Node.children,Entry.subParameter,namedWith,Node.value,Attribute,bind,Except.bind]
  have probability : getLowerLevelNodeWith (entry.node :: siblings) "subParameter" "name" "probability" =
      .ok [Entry.subParameter "probability" entry.probability] := by
    rw [getLowerLevelNodeWith_cons]
    simp [Entry.node,Node.children,Entry.subParameter,namedWith,Node.value,Attribute,bind,Except.bind]
  have value (name text : String) (siblings : List Node) : FirstChild "value" (Entry.subParameter name text :: siblings) =
      .ok [.element "value" [] [.text text]] := rfl
  have text (text : String) : GetText [.element "value" [] [.text text]] = .ok (some text) := rfl
  rw [getTargetNodeWithProbability,stationName,probability]
  simp only [FallibleLoops.bind_ok_iff,Except.ok.injEq,exists_eq_left',reduceCtorEq,if_false,value,text,required]
  constructor
  · rintro ⟨target,found,nodes,nodesWritten,probs,probsWritten,rfl⟩
    exact ⟨target,nodes,probs,found,nodesWritten,probsWritten,rfl⟩
  · rintro ⟨target,nodes,probs,found,nodesWritten,probsWritten,rfl⟩
    exact ⟨target,found,nodes,nodesWritten,probs,probsWritten,rfl⟩

/-- An entry needs a node of its name, and room in the arrays. -/
theorem body_ok_iff (targets : List (NodeInformation × ℚ)) (room : ℕ) (entry : Entry) (siblings : List Node)
    (result : ProbabilisticBranch × ℕ) :
    body round allNodes (.ofTargets targets room,targets.length) (entry.node :: siblings) = .ok result ↔
      ∃ target left, find allNodes entry.stationName = .ok target ∧ room = left + 1 ∧
        result = (.ofTargets (targets ++ [(target,atof round entry.probability)]) left,targets.length + 1) := by
  have written {Value : Type} (part : NodeInformation × ℚ → Value) (value : Value) (array : List (Option Value)) :
      write (filled (targets.map part) room) targets.length value = .ok array ↔
        ∃ left, room = left + 1 ∧ array = filled (targets.map part ++ [value]) left := by
    rw [← write_filled,List.length_map]
  simp only [body,FallibleLoops.bind_ok_iff,getTargetNodeWithProbability_ok_iff,ProbabilisticBranch.ofTargets,written]
  constructor
  · rintro ⟨-,⟨target,-,-,found,⟨left,rfl,rfl⟩,⟨other,same,rfl⟩,rfl⟩,ended⟩
    obtain rfl := Nat.succ.inj same
    refine ⟨target,left,found,rfl,?_⟩
    simpa using (Except.ok.inj ended).symm
  · rintro ⟨target,left,found,rfl,rfl⟩
    refine ⟨_,⟨target,_,_,found,⟨left,rfl,rfl⟩,⟨left,rfl,rfl⟩,rfl⟩,?_⟩
    simp

/-- The targets of the entries, and their probabilities. -/
def Resolved (round : ℚ → ℚ) (allNodes : List NodeInformation) : List Entry → List (NodeInformation × ℚ) → Prop :=
  List.Forall₂ fun entry target =>
    find allNodes entry.stationName = .ok target.1 ∧ target.2 = atof round entry.probability

/-- The loop over the entries fills the arrays. -/
theorem loop_ok_iff (round : ℚ → ℚ) (allNodes : List NodeInformation) (entries : List Entry)
    (targets : List (NodeInformation × ℚ)) (room : ℕ) (result : ProbabilisticBranch × ℕ) :
    (places "subParameter" (entries.map Entry.node)).foldlM (body round allNodes) (.ofTargets targets room,targets.length) =
        .ok result ↔
      ∃ more left, Resolved round allNodes entries more ∧ room = left + entries.length ∧
        result = (.ofTargets (targets ++ more) left,(targets ++ more).length) := by
  induction entries generalizing targets room with
  | nil =>
    constructor
    · intro ended
      exact ⟨[],room,.nil,rfl,by simpa using (Except.ok.inj ended).symm⟩
    · rintro ⟨_,left,⟨⟩,rfl,rfl⟩
      simp [places,pure,Except.pure]
  | cons entry entries ih =>
    have first : places "subParameter" ((entry :: entries).map Entry.node) =
        (entry.node :: entries.map Entry.node) :: places "subParameter" (entries.map Entry.node) := rfl
    rw [first,FallibleLoops.cons_ok_iff]
    constructor
    · rintro ⟨next,stepped,ended⟩
      obtain ⟨target,left,found,rfl,rfl⟩ := (body_ok_iff _ _ _ _ _).mp stepped
      have ended := (ih (targets ++ [(target,atof round entry.probability)]) left).mp (by simpa using ended)
      obtain ⟨more,left,resolved,rfl,rfl⟩ := ended
      exact ⟨(target,atof round entry.probability) :: more,left,.cons ⟨found,rfl⟩ resolved,rfl,by simp⟩
    · rintro ⟨more,left,resolved,rfl,rfl⟩
      cases resolved with
      | @cons _ target _ more found resolved =>
        obtain ⟨node,probability⟩ := target
        obtain ⟨found,rfl⟩ : find allNodes entry.stationName = .ok node ∧ probability = atof round entry.probability := found
        refine ⟨_,(body_ok_iff _ _ _ _ _).mpr ⟨node,left + entries.length,found,rfl,rfl⟩,?_⟩
        have rest := (ih (targets ++ [(node,atof round entry.probability)]) (left + entries.length)).mpr
          ⟨more,left,resolved,rfl,by simp⟩
        simpa using rest

theorem router_found (station : RoutedStation) (siblings : List Node) :
    getLowerLevelNodeWith (station.node :: siblings) "section" "className" "Router" =
      .ok ((station.router.map Strategy.router).toList.map Section.node) := by
  have found : (station.sections ++ (station.router.map Strategy.router).toList).dropWhile
      (fun section' => section'.className ≠ "Router") = (station.router.map Strategy.router).toList := by
    rw [List.dropWhile_append_of_pos fun section' member => by simpa using station.noRouter section' member]
    cases station.router with
    | none => rfl
    | some strategies => exact List.dropWhile_cons_of_neg (by simp [Strategy.router])
  rw [getLowerLevelNodeWith_cons,← found]
  exact namedWith_elements _

/-- The first strategy with probabilities is found, whatever comes before it. -/
theorem strategy_found (strategies : List (String × Strategy)) :
    ∃ siblings, namedWith "subParameter" "name" "Probabilities" (strategies.flatMap fun (customerClass,strategy) =>
        [.element "refClass" [] [.text customerClass],strategy.node]) =
      .ok (match Strategy.entries strategies with
        | none => []
        | some entries => (Strategy.probabilities entries).node :: siblings) := by
  induction strategies with
  | nil => exact ⟨[],rfl⟩
  | cons first strategies ih =>
    obtain ⟨customerClass,strategy⟩ := first
    cases strategy with
    | probabilities entries =>
      refine ⟨strategies.flatMap fun (customerClass,strategy) =>
        [.element "refClass" [] [.text customerClass],strategy.node],?_⟩
      simp [namedWith,Node.value,Strategy.node,Attribute,Strategy.entries,bind,Except.bind]
    | other name without =>
      obtain ⟨siblings,found⟩ := ih
      refine ⟨siblings,?_⟩
      have skipped : Strategy.entries ((customerClass,.other name without) :: strategies) = Strategy.entries strategies :=
        rfl
      rw [skipped,← found]
      simp [namedWith,Node.value,Strategy.node,Attribute,without,bind,Except.bind]

/-- The list of the entries is found through the sections, the parameters and the strategies. -/
theorem array_found (station : RoutedStation) (siblings : List Node) :
    (do
      let node ← getLowerLevelNodeWith (station.node :: siblings) "section" "className" "Router"
      let node ← getLowerLevelNodeWith node "parameter" "name" "RoutingStrategy"
      let node ← getLowerLevelNodeWith node "subParameter" "name" "Probabilities"
      getLowerLevelNodeWith node "subParameter" "name" "EmpiricalEntryArray") =
      .ok (match Strategy.entries station.strategies with
        | none => []
        | some entries => [.element "subParameter" [("name","EmpiricalEntryArray")] (entries.map Entry.node)]) := by
  rw [router_found]
  cases router : station.router with
  | none =>
    rw [RoutedStation.strategies,router]
    rfl
  | some strategies =>
    obtain ⟨siblings,found⟩ := strategy_found strategies
    have parameter : getLowerLevelNodeWith [(Strategy.router strategies).node] "parameter" "name" "RoutingStrategy" =
        .ok (Strategy.router strategies).parameters := by
      rw [getLowerLevelNodeWith_cons]
      simp [Section.node,Strategy.router,Node.children,namedWith,Node.value,Attribute,bind,Except.bind]
    have strategy : getLowerLevelNodeWith (Strategy.router strategies).parameters "subParameter" "name" "Probabilities" =
        .ok (match Strategy.entries strategies with
          | none => []
          | some entries => (Strategy.probabilities entries).node :: siblings) := by
      rw [Strategy.router,getLowerLevelNodeWith_cons]
      exact found
    simp only [Option.map_some,Option.toList_some,List.map_cons,List.map_nil,bind,Except.bind,parameter,strategy]
    rw [RoutedStation.strategies,router,Option.getD_some]
    cases Strategy.entries strategies with
    | none => rfl
    | some entries =>
      rw [getLowerLevelNodeWith_cons]
      simp [Strategy.node,Node.children,namedWith,Node.value,Attribute,bind,Except.bind]

theorem parse_of_none {station : RoutedStation} (none_given : Strategy.entries station.strategies = none)
    (siblings : List Node) (totalTargets : ℕ) :
    parseProbabilisticBranch round allNodes (station.node :: siblings) totalTargets = .ok none := by
  have found := array_found station siblings
  simp only [none_given] at found
  simp only [parseProbabilisticBranch,← bind_assoc] at found ⊢
  rw [found]
  rfl

/-- With probabilities there is a branch if there is an entry, and the arrays have room for all of them. -/
theorem parse_of_some {station : RoutedStation} {entries : List Entry}
    (given : Strategy.entries station.strategies = some entries) (siblings : List Node) (totalTargets : ℕ)
    (result : Option ProbabilisticBranch) :
    parseProbabilisticBranch round allNodes (station.node :: siblings) totalTargets = .ok result ↔
      ∃ targets room, Resolved round allNodes entries targets ∧ totalTargets = room + entries.length ∧ entries ≠ [] ∧
        result = some (.ofTargets targets room) := by
  have found := array_found station siblings
  simp only [given] at found
  have loop (final) : _ ↔ _ := loop_ok_iff round allNodes entries [] totalTargets final
  simp only [parseProbabilisticBranch,← bind_assoc] at found ⊢
  rw [found,FallibleLoops.bind_ok_iff]
  simp only [Except.ok.injEq,exists_eq_left']
  rw [FallibleLoops.bind_ok_iff]
  constructor
  · rintro ⟨⟨branch,count⟩,ended,made⟩
    obtain ⟨targets,room,resolved,enough,same⟩ := (loop _).mp ended
    obtain ⟨rfl,-⟩ := Prod.mk.inj same
    refine ⟨targets,room,resolved,enough,?_⟩
    cases resolved with
    | nil => cases room <;> simp [ProbabilisticBranch.ofTargets,filled,List.replicate_succ] at made
    | cons first resolved => exact ⟨List.cons_ne_nil _ _,(Except.ok.inj made).symm⟩
  · rintro ⟨targets,room,resolved,enough,someEntry,rfl⟩
    refine ⟨_,(loop _).mpr ⟨targets,room,resolved,enough,rfl⟩,?_⟩
    cases resolved with
    | nil => exact absurd rfl someEntry
    | cons first resolved => rfl

end JmtProbabilitiesParser

end Vexjine.JmtProbabilities
