/-
# The graph compiler

`src/core/ir/compiled_graph/graph_compiler.cpp`: `GraphCompiler::compile` lowers
a normalized graph to simulation nodes, splits every net with more than one
consumer into one buffer per consumer pin, sorts the nodes by level, and records
drivers, fanout, observation points and inputs.

The three parallel vectors `cg.nodes`, `node_levels` and `sim_owner_norm_id` are
one list of records (`LoweredNode`), which has no owner for the buffers appended
by the split, as the vector of owners ends before them.
-/

import FaultFlow.IR.CompiledGraph
import FaultFlow.IR.NormalizedGraph
import Mathlib.Data.List.Sort

namespace FaultFlow

open Std (TreeMap)

/-- `y2c` and `c2y`: the numbering of the nets while the graph is lowered. -/
structure NetIndex where
  y2c : TreeMap YosysNetID CompiledNetIndex := ∅
  c2y : List YosysNetID := []

namespace GraphCompiler

/-- `map_net`. -/
def mapNet (m : NetIndex) (yosysId : YosysNetID) : CompiledNetIndex × NetIndex :=
  match m.y2c[yosysId]? with
  | some idx => (idx, m)
  | none => (m.c2y.length,
      { y2c := m.y2c.insert yosysId m.c2y.length, c2y := m.c2y ++ [yosysId] })

/-- `wire_seq`: the names fill the slots from `in0` on. -/
def wireSeq (names : List String) : List (String × Fin 6) :=
  names.zip [0, 1, 2, 3, 4, 5]

/-- The calls of `wire` that `wire_inputs` makes for a gate type, in order: a
pin name and the slot it fills. -/
def wiring : GateType → List (String × Fin 6)
  | .INV | .BUF => [("A", 0)]
  | .WBR_IN => [("FROM_SYS", 0), ("CTO", 1)]
  | .WBR_OUT => [("FROM_CORE", 0), ("CTO", 1)]
  | .INPUT | .DFF => []
  | .AND2 | .AND2B | .OR2 | .NAND2 | .NOR2 | .XOR2 | .XNOR2 | .NAND2B | .NOR2B =>
    [("A", 0), ("B", 1), ("A_N", 0), ("B_N", 1), ("SLEEP", 1)]
  | .AND3 | .OR3 | .XOR3 | .XNOR3 | .NAND3B | .NOR3B | .OR3B =>
    wireSeq ["A", "B", "C"] ++ [("A_N", 0), ("C_N", 2)]
  | .AND4 | .OR4 | .NAND4 | .NOR4 | .NAND4B | .NOR4B | .OR4B =>
    wireSeq ["A", "B", "C", "D"] ++ [("A_N", 0), ("D_N", 3)]
  | .NAND3 | .NOR3 | .AOI21 | .OAI21 => [("A", 0), ("B", 1), ("C", 2)]
  | .AOI22 | .OAI22 => [("A", 0), ("B", 1), ("C", 2), ("D", 3)]
  | .MUX2 => [("A", 0), ("B", 1), ("S", 2)]
  | .MUX2_NI => wireSeq ["A0", "A1", "S"]
  | .A21O | .A21OI | .A21BO | .A21BOI => wireSeq ["A1", "A2", "B1"] ++ [("B1_N", 2)]
  | .A22O | .A22OI | .O22A | .O22AI => wireSeq ["A1", "A2", "B1", "B2"]
  | .A211O | .A211OI | .O211A | .O211AI => wireSeq ["A1", "A2", "B1", "C1"]
  | .A2111OI | .A2111O => wireSeq ["A1", "A2", "B1", "C1", "D1"]
  | .A221O | .A221OI | .O221A | .O221AI => wireSeq ["A1", "A2", "B1", "B2", "C1"]
  | .A31O | .A31OI | .O31A | .O31AI => wireSeq ["A1", "A2", "A3", "B1"]
  | .A32O | .A32OI | .O32AI | .O32A => wireSeq ["A1", "A2", "A3", "B1", "B2"]
  | .A41O | .A41OI | .O41A | .O41AI => wireSeq ["A1", "A2", "A3", "A4", "B1"]
  | .O21A | .O21AI | .O21BA | .O21BAI => wireSeq ["A1", "A2", "B1"] ++ [("B1_N", 2)]
  | .O311A | .O311AI => wireSeq ["A1", "A2", "A3", "B1", "C1"]
  | .A311O | .A311OI => wireSeq ["A1", "A2", "A3", "B1", "C1"]
  | .A222OI => wireSeq ["A1", "A2", "B1", "B2", "C1", "C2"]
  | .A2BB2OI | .O2BB2AI | .O2BB2A => [("A1_N", 0), ("A2_N", 1), ("B1", 2), ("B2", 3)]
  | .AND3B => [("A_N", 0), ("B", 1), ("C", 2)]
  | .AND4B => [("A_N", 0), ("B", 1), ("C", 2), ("D", 3)]
  | .MUX2I => wireSeq ["A0", "A1", "S"]
  | .NOR4BB => [("A", 0), ("B", 1), ("C_N", 2), ("D_N", 3)]
  | .NAND4BB | .AND4BB => [("A_N", 0), ("B_N", 1), ("C", 2), ("D", 3)]
  | .OR2B => [("A", 0), ("B_N", 1)]
  | .OR4BB => [("A", 0), ("B", 1), ("C_N", 2), ("D_N", 3)]
  | .A2BB2O => [("A1_N", 0), ("A2_N", 1), ("B1", 2), ("B2", 3)]
  | .MUX4 => wireSeq ["A0", "A1", "A2", "A3", "S0", "S1"]
  | .O2111A | .O2111AI => wireSeq ["A1", "A2", "B1", "C1", "D1"]
  | .ADDF_S | .ADDF_CO => [("A", 0), ("B", 1), ("C", 2)]
  | .ADDH_S | .ADDH_CO => [("A", 0), ("B", 1)]
  | .CONST0 | .CONST1 => []

/-- `wire`: a pin the node has fills the slot, and may fill it again. -/
def wire (pins : TreeMap String YosysNetID)
    (st : (Fin 6 → Option CompiledNetIndex) × NetIndex) (w : String × Fin 6) :
    (Fin 6 → Option CompiledNetIndex) × NetIndex :=
  match pins[w.1]? with
  | some yosysId =>
    let r := mapNet st.2 yosysId
    (Function.update st.1 w.2 (some r.1), r.2)
  | none => st

/-- `wire_inputs`. -/
def wireInputs (gt : GateType) (pins : TreeMap String YosysNetID) (m : NetIndex) :
    (Fin 6 → Option CompiledNetIndex) × NetIndex :=
  (wiring gt).foldl (wire pins) (fun _ => none, m)

/-- A node with its entry of `node_levels` and of `sim_owner_norm_id`. -/
structure LoweredNode where
  node : SimNode
  level : Nat
  owner : Option Nat

/-- The numbering, the nodes and the flip-flop configurations so far. -/
structure Lowering where
  index : NetIndex := {}
  nodes : List LoweredNode := []
  ffConfigs : List CompiledFFConfig := []

/-- `CompiledFFConfig` of a flip-flop. -/
def compileFfConfig (cfg : FFConfig) : CompiledFFConfig :=
  { trigger := cfg.trigger
    hasClear := cfg.clear.present
    clearPolarity := cfg.clear.polarity
    clearValue := cfg.clear.value
    hasPreset := cfg.preset.present
    presetPolarity := cfg.preset.polarity
    presetValue := cfg.preset.value
    hasScan := cfg.hasScan
    scanEnablePolarity := cfg.scanEnablePolarity
    hasEnable := cfg.enable.present
    enablePolarity := cfg.enable.polarity
    clearPresetConflictValue := cfg.clearPresetConflictValue }

/-- The nets a flip-flop's slots are filled with, in the order of the calls of
`map_net`; `clear` and `enable` share `in2`. -/
def ffWiring (cfg : FFConfig) : List (YosysNetID × Fin 6) :=
  [(cfg.dataNet, 0), (cfg.clockNet, 1)] ++
  (if cfg.clear.present then [(cfg.clear.net, 2)]
   else if cfg.enable.present then [(cfg.enable.net, 2)] else []) ++
  (if cfg.preset.present then [(cfg.preset.net, 3)] else []) ++
  (if cfg.hasScan then [(cfg.scanInNet, 4), (cfg.scanEnableNet, 5)] else [])

/-- One slot of a flip-flop. -/
def wireFf (st : (Fin 6 → Option CompiledNetIndex) × NetIndex) (w : YosysNetID × Fin 6) :
    (Fin 6 → Option CompiledNetIndex) × NetIndex :=
  let r := mapNet st.2 w.1
  (Function.update st.1 w.2 (some r.1), r.2)

/-- The flip-flop branch of `compile`. -/
def lowerFf (st : Lowering) (node : NormNode) : Except FlowError Lowering :=
  if node.ffConfig.clear.present && node.ffConfig.enable.present then
    .error (.runtimeError ("FF cannot combine clear and enable controls on the same " ++
      "instance (normalized node " ++ toString node.id ++ "): unsupported cell"))
  else
    let w := (ffWiring node.ffConfig).foldl wireFf (fun _ => none, st.index)
    let out := mapNet w.2 node.ffConfig.outputNet
    .ok { index := out.2
          nodes := st.nodes ++ [{ node := { type := .DFF, ins := w.1, out := out.1,
                                            ffCfg := st.ffConfigs.length }
                                  level := 0, owner := some node.id }]
          ffConfigs := st.ffConfigs ++ [compileFfConfig node.ffConfig] }

/-- The type of the node that computes one output of a cell: the adders compute
sum and carry by two nodes. -/
def outputType (gt : GateType) (pin : String) : GateType :=
  match gt with
  | .ADDF_S => if pin = "S" ∨ pin = "YS" then .ADDF_S else .ADDF_CO
  | .ADDH_S => if pin = "S" ∨ pin = "YS" then .ADDH_S else .ADDH_CO
  | gt => gt

/-- One output of a gate. -/
def lowerOutput (node : NormNode) (st : Lowering) (p : String × YosysNetID) : Lowering :=
  let type := outputType node.gateType p.1
  let w := wireInputs type node.inputPins st.index
  let out := mapNet w.2 p.2
  { st with
    index := out.2
    nodes := st.nodes ++ [{ node := { type := type, ins := w.1, out := out.1 }
                            level := node.level, owner := some node.id }] }

/-- One turn of the loop over the ordered nodes. -/
def lowerNode (st : Lowering) (node : NormNode) : Except FlowError Lowering :=
  match node.type with
  | .FF => lowerFf st node
  | .GATE | .CONST => .ok (node.outputPins.toList.foldl (lowerOutput node) st)
  | _ => .ok st

variable (ng : NormalizedGraph) (y2c : TreeMap YosysNetID CompiledNetIndex)
  (nodes : List LoweredNode) (stem : CompiledNetIndex)

/-- `ordered`: by level, then by id. -/
def ordered : List NormNode :=
  ng.nodes.insertionSort fun a b => a.level < b.level ∨ (a.level = b.level ∧ a.id ≤ b.id)

/-- The numbering before any node is lowered: every net, in order. -/
def initialIndex : NetIndex := ng.nets.keys.foldl (fun m id => (mapNet m id).2) {}

/-- The graph before branches are split. -/
def lower : Except FlowError Lowering := (ordered ng).foldlM lowerNode { index := initialIndex ng }

/-- `FanoutEdge`. -/
structure FanoutEdge where
  nodeIdx : Nat
  slot : Fin 6
deriving DecidableEq, Repr

/-- `fanout_edges[stem]`: the slots that read a net, by node and slot. -/
def fanoutEdges : List FanoutEdge :=
  nodes.zipIdx.flatMap fun p =>
    ((List.finRange 6).filter fun s => p.1.node.ins s = some stem).map fun s => ⟨p.2, s⟩

/-- `pin_for_compiled_input`: the first pin on the net, or the empty name. -/
def pinForCompiledInput (norm : NormNode) (y2c : TreeMap YosysNetID CompiledNetIndex)
    (compiledIn : CompiledNetIndex) : String :=
  ((norm.inputPins.toList.find? fun p => y2c[p.2]? = some compiledIn).map Prod.fst).getD ""

/-- `BranchGroup`, with the key `group_index` has for it. -/
structure BranchGroup where
  key : Option (Nat × String)
  instanceName : String
  inputPin : String
  edges : List FanoutEdge

/-- The owner of an edge's consumer and the pin its stem enters by. -/
def edgeSite (edge : FanoutEdge) : Option (NormNode × String) := do
  let ln ← nodes[edge.nodeIdx]?
  let norm ← ng.nodes.find? fun node => ln.owner = some node.id
  let pin := pinForCompiledInput norm y2c stem
  if pin = "" then none else some (norm, pin)

/-- One edge joins the group of its consumer pin, or opens a group. -/
def addEdge (site : FanoutEdge → Option (NormNode × String)) (groups : List BranchGroup)
    (edge : FanoutEdge) : List BranchGroup :=
  match site edge with
  | some (norm, pin) =>
    if groups.any fun g => g.key = some (norm.id, pin) then
      groups.map fun g =>
        if g.key = some (norm.id, pin) then { g with edges := g.edges ++ [edge] } else g
    else groups ++ [⟨some (norm.id, pin), norm.instanceName, pin, [edge]⟩]
  | none => groups ++ [⟨none, "", "", [edge]⟩]

/-- The branch groups of one stem; a net with at most one consumer has none. -/
def branchGroups : List BranchGroup :=
  if (fanoutEdges nodes stem).length ≤ 1 then []
  else (fanoutEdges nodes stem).foldl (addEdge (edgeSite ng y2c nodes stem)) []

/-- What `split_fanout_branches` changes. -/
structure Splitting where
  nodes : List LoweredNode
  c2y : List YosysNetID
  netSites : CompiledNetIndex → NetSiteInfo := fun _ => {}

/-- `*input_slot(cg.nodes[edge.node_idx], edge.slot) = branch`. -/
def rewire (branch : CompiledNetIndex) (nodes : List LoweredNode) (edge : FanoutEdge) :
    List LoweredNode :=
  nodes.modify edge.nodeIdx fun ln =>
    { ln with node := { ln.node with
        ins := Function.update ln.node.ins edge.slot (some branch) } }

/-- The level of the consumer a group is placed before. -/
def consumerLevel (group : BranchGroup) : Nat :=
  ((group.edges.head?.bind fun e => nodes[e.nodeIdx]?).map LoweredNode.level).getD 0

/-- One branch: a buffer one level below the consumer, read in the stem's place
by every edge of the group. -/
def addBranch (st : Splitting) (group : BranchGroup) : Splitting :=
  let branch := st.c2y.length
  let buf : LoweredNode :=
    { node := { type := .BUF, ins := Function.update (fun _ => none) 0 (some stem), out := branch }
      level := consumerLevel st.nodes group - 1
      owner := none }
  { nodes := group.edges.foldl (rewire branch) (st.nodes ++ [buf])
    c2y := st.c2y ++ [st.c2y.getD stem 0]
    netSites :=
      if group.instanceName ≠ "" ∧ group.inputPin ≠ "" then
        Function.update st.netSites branch
          { kind := .BRANCH, consumerInstance := group.instanceName, inputPin := group.inputPin }
      else st.netSites }

/-- `split_fanout_branches`. -/
def splitFanoutBranches (index : NetIndex) (nodes : List LoweredNode) : Splitting :=
  (List.range index.c2y.length).foldl (fun st stem =>
    (branchGroups ng index.y2c nodes stem).foldl (addBranch stem) st)
    { nodes := nodes, c2y := index.c2y }

/-- The sorted nodes of `rebuild_level_starts`: by level, then by position. -/
def sortByLevel : List LoweredNode :=
  (nodes.zipIdx.insertionSort fun a b =>
    a.1.level < b.1.level ∨ (a.1.level = b.1.level ∧ a.2 ≤ b.2)).map Prod.fst

/-- The positions from `i` on at which the level changes. -/
def levelChanges (i cur : Nat) : List Nat → List Nat
  | [] => []
  | l :: ls => if l ≠ cur then i :: levelChanges (i + 1) l ls else levelChanges (i + 1) cur ls

/-- `cg.level_starts`. -/
def levelStarts : List Nat → List Nat
  | [] => []
  | l :: ls => 0 :: levelChanges 1 l ls ++ [ls.length + 1]

/-- `rebuild_fanout_csr`: for each net the outputs of its consumers, once for
every slot. -/
def fanoutRows (netCount : Nat) (nodes : List SimNode) : List (List CompiledNetIndex) :=
  (List.range netCount).map fun net =>
    nodes.flatMap fun sn => (sn.slots.filter fun o => o = some net).map fun _ => sn.out

/-- `driver_index`: the last node that writes a net. -/
def driverIndex (netCount : Nat) (nodes : List SimNode) : List (Option Nat) :=
  nodes.zipIdx.foldl (fun d p => d.set p.1.out (some p.2)) (List.replicate netCount none)

/-- `push_unique`; the test points join the observation points the same way. -/
def pushUnique (v : List CompiledNetIndex) (x : CompiledNetIndex) : List CompiledNetIndex :=
  if x ∈ v then v else v ++ [x]

/-- A wrapper cell in compiled nets; one with an unknown net is skipped. -/
def compileWrapperCell (wc : NormWrapperCell) : Option CompiledWrapperCell := do
  let core ← y2c[wc.coreNet]?
  let sys ← y2c[wc.sysNet]?
  return { coreIdx := core, sysIdx := sys, isInput := wc.isInput, scan := wc.scan,
           ctoIdx := if wc.scan then y2c[wc.ctoNet]? else none }

/-- A pseudo-input joins `pi_nets` and `pseudo_pi_nets` when it is not an input
already. -/
def pushPseudoPi (v : List CompiledNetIndex × List CompiledNetIndex) (x : CompiledNetIndex) :
    List CompiledNetIndex × List CompiledNetIndex :=
  if x ∈ v.1 then v else (v.1 ++ [x], v.2 ++ [x])

/-- `compile` after the lowering: split, sort, and record what the later passes
look up. -/
def assemble (low : Lowering) : CompiledSimGraph :=
  let split := splitFanoutBranches ng low.index low.nodes
  let sorted := sortByLevel split.nodes
  let nodes := sorted.map LoweredNode.node
  let netCount := split.c2y.length
  let y2c := low.index.y2c
  let pos := ng.POs.toList.filterMap fun po => y2c[po]?
  let pis := ng.PIs.toList.filterMap fun pi => y2c[pi]?
  let inputs := (ng.pseudoInputs.toList.filterMap fun ppi => y2c[ppi]?).foldl pushPseudoPi (pis, [])
  { nodes := nodes
    ffConfigs := low.ffConfigs
    ffNodes := (List.range nodes.length).filter fun i => (nodes[i]?).any fun n => n.type = .DFF
    fanoutRows := fanoutRows netCount nodes
    levelStarts := levelStarts (sorted.map LoweredNode.level)
    observable := (ng.TPs.toList.filterMap fun tp => y2c[tp]?).foldl pushUnique pos
    piNets := inputs.1
    pseudoPiNets := inputs.2
    netCount := netCount
    yosysToCompiled := y2c
    compiledToYosys := split.c2y
    netSites := split.netSites
    driverIndex := driverIndex netCount nodes
    wrapperCells := ng.wrapperCells.filterMap (compileWrapperCell y2c) }

/-- `GraphCompiler::compile`. -/
def compile : Except FlowError CompiledSimGraph := do
  let low ← lower ng
  return assemble ng low

end GraphCompiler

end FaultFlow
