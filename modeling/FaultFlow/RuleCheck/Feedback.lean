/-
# The combinational feedback rule

`faultflow/rule_check`: `build_netlist_facts` (`facts.py`) reads the cells of a netlist with
the pins that the cell map gives them, and `rule_combinational_feedback` (`rules.py`) searches
the nets for a loop through cells that are not flip-flops.  A cell whose type is in no entry
of the map is a gate without pins; a pin counts when it holds one net.

The rule leaves out the edge from a net to itself.  It ends on every netlist and what it
reports is a cycle, but it reports one only if there is a cycle over at least two nets
(`feedback_reported_iff`): a gate that feeds its own input passes (`selfLoop_passes`).

Of the facts only what this rule reads is kept.
-/

import FaultFlow.Lib.DepthFirst
import FaultFlow.Scan.Netlist

namespace FaultFlow

open Lib
open Scan (Module Cell Bit CellEntry RawCellMap lookupCell maybeOneBit intBits)
open Std (TreeMap)

namespace RuleCheck

/-! ## The facts of a netlist -/

/-- `CellFact`: the nets on the input and output pins of a cell. -/
structure CellFact where
  nodeType : String
  inputs : List (String × YosysNetID)
  outputs : List (String × YosysNetID)
deriving DecidableEq, Repr

/-- `is_ff`. -/
def CellFact.isFf (cell : CellFact) : Bool := cell.nodeType = "FF"

/-- `NetlistFacts`. -/
structure NetlistFacts where
  cells : List CellFact
  netNames : TreeMap YosysNetID String

variable (facts : NetlistFacts)

/-- `net_name`. -/
def NetlistFacts.netName (net : YosysNetID) : String :=
  facts.netNames.getD net ("net" ++ toString net)

/-- The pins that hold one net, each once. -/
def pinNets (cell : Cell) (pins : List String) : List (String × YosysNetID) :=
  pins.eraseDups.filterMap fun pin => (maybeOneBit (cell.pin pin)).map (pin, ·)

/-- The fact of one cell. -/
def cellFact (map : RawCellMap) (cell : Cell) : CellFact :=
  match lookupCell map cell.type with
  | none => { nodeType := "GATE", inputs := [], outputs := [] }
  | some entry =>
    { nodeType := entry.nodeType
      inputs := pinNets cell entry.inputs
      outputs := pinNets cell entry.outputs.values }

/-- The first name given to a net stays. -/
def nameBits (names : TreeMap YosysNetID String) (name : String) (bits : List Bit) :
    TreeMap YosysNetID String :=
  (intBits bits).foldl (fun names bit => names.insertIfNew bit name) names

/-- `build_netlist_facts`, of the top module. -/
def buildNetlistFacts (m : Module) (map : RawCellMap) : NetlistFacts :=
  let names := m.ports.toList.foldl (fun names p => nameBits names p.1 p.2.bits) ∅
  { cells := m.cells.toList.map fun p => cellFact map p.2
    netNames := m.netnames.toList.foldl (fun names p => nameBits names p.1 p.2) names }

/-! ## The rule -/

/-- The edges of a cell, without those from a net to itself. -/
def CellFact.edges (cell : CellFact) : List (YosysNetID × YosysNetID) :=
  if cell.isFf then []
  else cell.inputs.flatMap fun i => cell.outputs.filterMap fun o =>
    if i.2 = o.2 then none else some (i.2, o.2)

/-- The successors of each net, with the nets in the order of their first edge. -/
abbrev Adjacency := List (YosysNetID × List YosysNetID)

/-- `adj.setdefault(inet, []).append(onet)`. -/
def Adjacency.append : Adjacency → YosysNetID → YosysNetID → Adjacency
  | [], inet, onet => [(inet, [onet])]
  | (net, succs) :: adj, inet, onet =>
    if net = inet then (net, succs ++ [onet]) :: adj
    else (net, succs) :: Adjacency.append adj inet onet

/-- `adj.get(node, [])`. -/
def Adjacency.succs : Adjacency → YosysNetID → List YosysNetID
  | [], _ => []
  | (net, succs) :: adj, node => if net = node then succs else Adjacency.succs adj node

/-- The graph that the rule searches. -/
def combAdjacency : Adjacency :=
  (facts.cells.flatMap CellFact.edges).foldl (fun adj e => adj.append e.1 e.2) []

/-- `_find_comb_cycle`; `none` if the fuel of the loop does not suffice. -/
def findCombCycle (fuel : ℕ) : Option (Option (List YosysNetID)) :=
  let adj := combAdjacency facts
  findCycle adj.succs fuel (adj.map Prod.fst) fun _ => .white

/-- `Severity`. -/
inductive Severity where
  | ERROR
  | WARNING
  | INFO
deriving DecidableEq, Repr

/-- `Violation`. -/
structure Violation where
  ruleId : String
  severity : Severity
  title : String
  message : String
deriving DecidableEq, Repr

/-- The report of a cycle. -/
def feedbackViolation (cycle : List YosysNetID) : Violation where
  ruleId := "STRUCT001"
  severity := .ERROR
  title := "combinational feedback loop"
  message := "combinational cycle through nets: " ++
    " -> ".intercalate (cycle.map facts.netName)

/-- `rule_combinational_feedback`. -/
def ruleCombinationalFeedback (fuel : ℕ) : Option (List Violation) := do
  match ← findCombCycle facts fuel with
  | none => return []
  | some cycle => return [feedbackViolation facts cycle]

/-! ## The graph of the nets -/

/-- A cell that is not a flip-flop has net `a` on an input pin and net `b` on an output
pin. -/
def Connects (m : Module) (map : RawCellMap) (a b : YosysNetID) : Prop :=
  ∃ (inst : String) (cell : Cell) (entry : CellEntry) (pin out : String),
    m.cells[inst]? = some cell ∧
    lookupCell map cell.type = some entry ∧ entry.nodeType ≠ "FF" ∧
    pin ∈ entry.inputs ∧ out ∈ entry.outputs.values ∧
    maybeOneBit (cell.pin pin) = some a ∧ maybeOneBit (cell.pin out) = some b

variable {m : Module} {map : RawCellMap} {cell : Cell} {a b : YosysNetID} {facts}

theorem exists_mem_pinNets {pins : List String} {net : YosysNetID} :
    (∃ p ∈ pinNets cell pins, p.2 = net) ↔
      ∃ pin ∈ pins, maybeOneBit (cell.pin pin) = some net := by
  simp only [pinNets, List.mem_filterMap, List.mem_eraseDups, Option.map_eq_some_iff]
  constructor
  · rintro ⟨p, ⟨pin, hpin, net, hnet, rfl⟩, rfl⟩
    exact ⟨pin, hpin, hnet⟩
  · rintro ⟨pin, hpin, hnet⟩
    exact ⟨(pin, net), ⟨pin, hpin, net, hnet, rfl⟩, rfl⟩

theorem CellFact.mem_edges {cell : CellFact} :
    (a, b) ∈ cell.edges ↔ cell.isFf = false ∧ (∃ p ∈ cell.inputs, p.2 = a) ∧
      (∃ p ∈ cell.outputs, p.2 = b) ∧ a ≠ b := by
  unfold CellFact.edges
  cases hff : cell.isFf with
  | true => simp
  | false =>
    simp only [Bool.false_eq_true, if_false, List.mem_flatMap, List.mem_filterMap, true_and]
    constructor
    · rintro ⟨i, hi, o, ho, hedge⟩
      split at hedge
      · cases hedge
      · obtain ⟨rfl, rfl⟩ := Prod.mk.inj (Option.some.inj hedge)
        exact ⟨⟨i, hi, rfl⟩, ⟨o, ho, rfl⟩, ‹_›⟩
    · rintro ⟨⟨i, hi, rfl⟩, ⟨o, ho, rfl⟩, hne⟩
      exact ⟨i, hi, o, ho, if_neg hne⟩

theorem mem_edges_cellFact : (a, b) ∈ (cellFact map cell).edges ↔ a ≠ b ∧ ∃ entry pin out,
      lookupCell map cell.type = some entry ∧ entry.nodeType ≠ "FF" ∧
      pin ∈ entry.inputs ∧ out ∈ entry.outputs.values ∧
      maybeOneBit (cell.pin pin) = some a ∧ maybeOneBit (cell.pin out) = some b := by
  rw [CellFact.mem_edges, cellFact]
  cases hentry : lookupCell map cell.type with
  | none => simp
  | some entry =>
    simp only [exists_mem_pinNets, CellFact.isFf, decide_eq_false_iff_not]
    constructor
    · rintro ⟨hff, ⟨pin, hpin, ha⟩, ⟨out, hout, hb⟩, hne⟩
      exact ⟨hne, entry, pin, out, rfl, hff, hpin, hout, ha, hb⟩
    · rintro ⟨hne, entry', pin, out, heq, hff, hpin, hout, ha, hb⟩
      cases heq
      exact ⟨hff, ⟨pin, hpin, ha⟩, ⟨out, hout, hb⟩, hne⟩

/-- **The edges of the facts** are the connections of two nets. -/
theorem mem_edges_facts : (a, b) ∈ (buildNetlistFacts m map).cells.flatMap CellFact.edges ↔
      Connects m map a b ∧ a ≠ b := by
  simp only [buildNetlistFacts, List.mem_flatMap, List.mem_map]
  constructor
  · rintro ⟨_, ⟨⟨inst, cell⟩, hp, rfl⟩, hedge⟩
    obtain ⟨hne, entry, pin, out, hrest⟩ := mem_edges_cellFact.1 hedge
    exact ⟨⟨inst, cell, entry, pin, out, TreeMap.mem_toList_iff_getElem?_eq_some.1 hp, hrest⟩,
      hne⟩
  · rintro ⟨⟨inst, cell, entry, pin, out, hcell, hrest⟩, hne⟩
    exact ⟨_, ⟨(inst, cell), TreeMap.mem_toList_iff_getElem?_eq_some.2 hcell, rfl⟩,
      mem_edges_cellFact.2 ⟨hne, entry, pin, out, hrest⟩⟩

theorem Adjacency.succs_append (adj : Adjacency) (a b x : YosysNetID) :
    (adj.append a b).succs x = if x = a then adj.succs x ++ [b] else adj.succs x := by
  induction adj with
  | nil => simp [Adjacency.append, Adjacency.succs, eq_comm]
  | cons entry adj ih =>
    obtain ⟨net, succs⟩ := entry
    rw [Adjacency.append]
    by_cases hnet : net = a
    · rw [if_pos hnet]
      by_cases hx : net = x
      · simp [Adjacency.succs, ← hx, hnet]
      · simp [Adjacency.succs, hx, show x ≠ a from fun e => hx (hnet.trans e.symm)]
    · rw [if_neg hnet]
      by_cases hx : net = x
      · simp [Adjacency.succs, ← hx, hnet]
      · simpa [Adjacency.succs, hx] using ih

theorem Adjacency.mem_keys_append {adj : Adjacency} {x : YosysNetID} :
    x ∈ (adj.append a b).map Prod.fst ↔ x = a ∨ x ∈ adj.map Prod.fst := by
  induction adj with
  | nil => simp [Adjacency.append]
  | cons entry adj ih =>
    obtain ⟨net, succs⟩ := entry
    rw [Adjacency.append]
    by_cases hnet : net = a
    · simp [hnet]
    · rw [if_neg hnet, List.map_cons, List.map_cons, List.mem_cons, List.mem_cons, ih]
      tauto

/-- **The adjacency lists** hold the edges. -/
theorem mem_succs_combAdjacency :
    b ∈ (combAdjacency facts).succs a ↔ (a, b) ∈ facts.cells.flatMap CellFact.edges := by
  refine foldl_visited (fun pre (adj : Adjacency) => b ∈ adj.succs a ↔ (a, b) ∈ pre) ?_ ?_
  · simp [Adjacency.succs]
  · rintro pre ⟨x, y⟩ post adj - ih
    rw [Adjacency.succs_append, List.mem_append, List.mem_singleton, ← ih, Prod.mk.injEq]
    by_cases hx : a = x
    · simp [hx]
    · simp [hx]

theorem mem_keys_combAdjacency : a ∈ (combAdjacency facts).map Prod.fst ↔
      ∃ b, (a, b) ∈ facts.cells.flatMap CellFact.edges := by
  refine foldl_visited (fun pre (adj : Adjacency) =>
    a ∈ adj.map Prod.fst ↔ ∃ b, (a, b) ∈ pre) ?_ ?_
  · simp
  · rintro pre ⟨x, y⟩ post adj - ih
    rw [Adjacency.mem_keys_append, ih]
    simp only [List.mem_append, List.mem_singleton, Prod.mk.injEq, exists_or]
    rw [or_comm]
    simp

/-! ## What the rule finds -/

/-- **The search of the rule** ends, returns cycles, and returns one when there is one. -/
theorem findCombCycle_spec (facts : NetlistFacts) :
    ∃ steps, ∀ fuel ≥ steps, ∃ r, findCombCycle facts fuel = some r ∧
      (∀ p ∈ r, IsCycle (fun a b => (a, b) ∈ facts.cells.flatMap CellFact.edges) p) ∧
      (r.isSome ↔
        ∃ a, Relation.TransGen (fun a b => (a, b) ∈ facts.cells.flatMap CellFact.edges) a a) := by
  set edges := facts.cells.flatMap CellFact.edges with hedges
  set U : Finset YosysNetID := (edges.map Prod.fst ++ edges.map Prod.snd).toFinset with hUdef
  have hnext : (fun a b => b ∈ (combAdjacency facts).succs a) = fun a b => (a, b) ∈ edges :=
    funext₂ fun a b => propext mem_succs_combAdjacency
  have hU : ∀ a ∈ U, ∀ b ∈ (combAdjacency facts).succs a, b ∈ U := by
    intro a _ b hb
    have hmem : (a, b) ∈ edges := mem_succs_combAdjacency.1 hb
    exact List.mem_toFinset.2 (List.mem_append_right _ (List.mem_map_of_mem hmem))
  have hroots : ∀ a ∈ (combAdjacency facts).map Prod.fst, a ∈ U := by
    intro a ha
    obtain ⟨b, hb⟩ := mem_keys_combAdjacency.1 ha
    exact List.mem_toFinset.2 (List.mem_append_left _ (List.mem_map_of_mem hb))
  have hall : ∀ a b, b ∈ (combAdjacency facts).succs a → a ∈ (combAdjacency facts).map Prod.fst :=
    fun a b hb => mem_keys_combAdjacency.2 ⟨b, mem_succs_combAdjacency.1 hb⟩
  refine ⟨unseen (combAdjacency facts).succs U (fun _ => .white) + 1, fun fuel hfuel => ?_⟩
  rw [← hnext]
  exact findCycle_spec hU hroots hall (by omega)

/-- Without a net that is connected to itself, every cycle is one over several nets. -/
theorem transGen_ne_of_irrefl (h : ∀ a, ¬ Connects m map a a)
    (hab : Relation.TransGen (Connects m map) a b) :
    Relation.TransGen (fun x y => Connects m map x y ∧ x ≠ y) a b :=
  hab.lift id fun x _ hxy => ⟨hxy, fun e => h x (Eq.subst e.symm hxy)⟩

/-- **When the rule reports.**  It ends on every netlist; a report shows a cycle; and it
reports exactly when there is a cycle without the edges from a net to itself.  That is the
presence of any cycle unless the only ones are such edges. -/
theorem feedback_reported_iff (m : Module) (map : RawCellMap) :
    ∃ steps, ∀ fuel ≥ steps, ∃ violations,
      ruleCombinationalFeedback (buildNetlistFacts m map) fuel = some violations ∧
      (∀ v ∈ violations, ∃ cycle, v = feedbackViolation (buildNetlistFacts m map) cycle ∧
        IsCycle (Connects m map) cycle) ∧
      (violations ≠ [] ↔
        ∃ a, Relation.TransGen (fun x y => Connects m map x y ∧ x ≠ y) a a) ∧
      ((violations ≠ [] ↔ ∃ a, Relation.TransGen (Connects m map) a a) ↔
        ((∃ a, Connects m map a a) →
          ∃ a, Relation.TransGen (fun x y => Connects m map x y ∧ x ≠ y) a a)) := by
  obtain ⟨steps, hsteps⟩ := findCombCycle_spec (buildNetlistFacts m map)
  refine ⟨steps, fun fuel hfuel => ?_⟩
  obtain ⟨r, hr, hcycle, hsome⟩ := hsteps fuel hfuel
  have hrel : (fun a b => (a, b) ∈ (buildNetlistFacts m map).cells.flatMap CellFact.edges) =
      fun x y => Connects m map x y ∧ x ≠ y :=
    funext₂ fun a b => propext mem_edges_facts
  rw [hrel] at hcycle hsome
  have hany : (∃ a, Relation.TransGen (fun x y => Connects m map x y ∧ x ≠ y) a a) →
      ∃ a, Relation.TransGen (Connects m map) a a :=
    fun ⟨a, ha⟩ => ⟨a, ha.lift id fun _ _ h => h.1⟩
  -- with the exact condition, the rest is about the two kinds of cycle
  suffices H : ∃ violations,
      ruleCombinationalFeedback (buildNetlistFacts m map) fuel = some violations ∧
      (∀ v ∈ violations, ∃ cycle, v = feedbackViolation (buildNetlistFacts m map) cycle ∧
        IsCycle (Connects m map) cycle) ∧ (violations ≠ [] ↔ r.isSome) by
    obtain ⟨violations, hrule, hreal, hiff⟩ := H
    rw [hsome] at hiff
    refine ⟨violations, hrule, hreal, hiff, ?_⟩
    rw [hiff]
    constructor
    · rintro hexact ⟨a, ha⟩
      exact hexact.2 ⟨a, .single ha⟩
    · refine fun hself => ⟨hany, fun ⟨a, ha⟩ => ?_⟩
      by_cases h : ∃ a, Connects m map a a
      · exact hself h
      · exact ⟨a, transGen_ne_of_irrefl (not_exists.1 h) ha⟩
  unfold ruleCombinationalFeedback
  rw [hr]
  cases r with
  | none => exact ⟨[], rfl, nofun, by simp⟩
  | some p =>
    refine ⟨[feedbackViolation _ p], rfl, fun v hv => ?_, by simp⟩
    rw [List.mem_singleton.1 hv]
    exact ⟨p, rfl, (hcycle p rfl).mono fun _ _ h => h.1⟩

/-! ## A gate that feeds its own input -/

/-- An inverter with net `4` on both pins. -/
def selfLoop : Module where
  cells := TreeMap.ofList [("u_inv", Cell.ofPins "INV" [("A", 4), ("Y", 4)])]

/-- The map of the inverter. -/
def invCells : RawCellMap :=
  TreeMap.ofList [(("INV" : String),
    ({ nodeType := "GATE", inputs := ["A"], outputs := TreeMap.ofList [("Y", "Y")] } : CellEntry))]

/-- Net `4` is connected to itself, and the rule reports nothing. -/
theorem selfLoop_passes :
    Connects selfLoop invCells 4 4 ∧
      ∀ fuel, ruleCombinationalFeedback (buildNetlistFacts selfLoop invCells) fuel = some [] := by
  constructor
  · refine ⟨"u_inv", Cell.ofPins "INV" [("A", 4), ("Y", 4)], _, "A", "Y", ?_, rfl, ?_, ?_, ?_, ?_,
      ?_⟩
    all_goals first | rfl | decide +kernel
  · intro fuel
    have hadj : combAdjacency (buildNetlistFacts selfLoop invCells) = [] := by decide +kernel
    simp [ruleCombinationalFeedback, findCombCycle, hadj, findCycle]

end RuleCheck

end FaultFlow
