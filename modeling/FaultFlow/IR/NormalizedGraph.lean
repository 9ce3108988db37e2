/-
# The normalized graph

`src/core/ir/normalized_graph/normalized_graph.{hpp,cpp}`: elaboration of a
parsed netlist through a cell map, up to the levels.  `fromParsed` is
`NormalizedGraph::from_parsed`; its phases are functions of their own, under
the comments of the source, and throw what the source throws.

Nodes are kept in a list: the source numbers them from `1` upwards and iterates
its map in key order, which is the order of creation.  The names, aliases and
the `fanout` list of a net are left out, since no later pass reads them.
-/

import FaultFlow.IR.ParsedGraph
import FaultFlow.Lib.Kahn
import Std.Data.TreeSet.Basic

namespace FaultFlow

open Std (TreeMap TreeSet)

/-- `NormNet`.  The flags `is_pi`, `is_po`, `is_tp` and `is_pseudo_input` repeat
the sets of the graph and are read through those. -/
structure NormNet where
  driver : Option Nat := none
  isClock : Bool := false
  isReset : Bool := false
  isBlackboxed : Bool := false
deriving DecidableEq, Repr, Inhabited

/-- `NormNode`. -/
structure NormNode where
  id : Nat := 0
  instanceName : String := ""
  type : NodeType := .GATE
  gateType : GateType := .BUF
  inputPins : TreeMap String YosysNetID := ∅
  outputPins : TreeMap String YosysNetID := ∅
  level : Nat := 0
  ffConfig : FFConfig := {}

/-- `NormWrapperCell`. -/
structure NormWrapperCell where
  coreNet : YosysNetID
  sysNet : YosysNetID
  isInput : Bool
  scan : Bool := false
  ctoNet : YosysNetID := 0
deriving DecidableEq, Repr

/-- `NormalizedGraph`. -/
structure NormalizedGraph where
  nodes : List NormNode := []
  nets : TreeMap YosysNetID NormNet := ∅
  PIs : TreeSet YosysNetID := ∅
  POs : TreeSet YosysNetID := ∅
  TPs : TreeSet YosysNetID := ∅
  pseudoInputs : TreeSet YosysNetID := ∅
  wrapperCells : List NormWrapperCell := []

namespace NormalizedGraph

variable (inst : String) (mod : ParsedModule) (cellMap : CellMap) (cell : ParsedCell)
  (entry : CellMapEntry) (ng : NormalizedGraph) (bit : YosysNetID) (name : String)

/-- `lower_name`, as the list of its characters. -/
def lowerName : List Char := name.toList.map Char.toLower

/-- `lower.find(sub) != std::string::npos`. -/
def contains (lower : List Char) (sub : String) : Bool :=
  lower.tails.any fun t => sub.toList.isPrefixOf t

/-- `is_clock_name`. -/
def isClockName : Bool :=
  let lower := lowerName name
  lower == "clk".toList || lower == "clock".toList || contains lower "clk"

/-- `is_reset_name`. -/
def isResetName : Bool :=
  let lower := lowerName name
  lower == "rst".toList || lower == "reset".toList || contains lower "reset" ||
    contains lower "rst"

/-- `ng.nets[bit]` as an l-value: a missing net is created. -/
def updNet (f : NormNet → NormNet) : NormalizedGraph :=
  { ng with nets := ng.nets.insert bit (f (ng.nets.getD bit {})) }

/-- `ng.nets[bit].driver`; `none` is the source's `-1`. -/
def driver : Option Nat := (ng.nets.getD bit {}).driver

/-- `ng.nets[bit].driver = id`. -/
def setDriver (id : Nat) : NormalizedGraph := ng.updNet bit fun n => { n with driver := some id }

/-- `ensure_net`. -/
def ensureNet : NormalizedGraph := ng.updNet bit id

/-- `tag_clock_net`. -/
def tagClockNet : NormalizedGraph := ng.updNet bit fun n => { n with isClock := true }

/-- `tag_reset_net`. -/
def tagResetNet : NormalizedGraph := ng.updNet bit fun n => { n with isReset := true }

/-- `ng.nets[bit].is_blackboxed = true`. -/
def tagBlackboxed : NormalizedGraph := ng.updNet bit fun n => { n with isBlackboxed := true }

/-- `tag_special_net`. -/
def tagSpecialNet : NormalizedGraph :=
  let ng := if isClockName name then ng.tagClockNet bit else ng
  if isResetName name then ng.tagResetNet bit else ng

/-- `first_conn_or_throw`. -/
def firstConnOrThrow (pin cellType : String) : Except FlowError YosysNetID :=
  match cell.front? pin with
  | some net => .ok net
  | none => .error (.ParseError ("Cell " ++ cellType ++ " missing required pin " ++ pin))

/-- One control of `build_ff_config`: the `clear` and `preset` branches, and
with `keepValue = false` the `enable` branch, which leaves the value alone. -/
def buildFfControl (ctl : CellFFControl) (cell : ParsedCell) (keepValue : Bool) :
    Except FlowError FFControlConfig :=
  if ctl.present then do
    let net ← firstConnOrThrow cell ctl.pin cell.type
    return { net := net, polarity := ctl.polarity, value := if keepValue then ctl.value else 0,
             present := true }
  else return {}

/-- The library pin of the output `ff.output` names. -/
def ffOutputPin (cell : ParsedCell) : Except FlowError String :=
  match entry.outputs[entry.ff.output]? with
  | some libPin => .ok libPin
  | none => .error (.ParseError ("FF cell map output missing: " ++ cell.type))

/-- `scan_in_net` and `scan_enable_net`. -/
def ffScanNets (cell : ParsedCell) : Except FlowError (YosysNetID × YosysNetID) :=
  if entry.ff.hasScan then do
    let scanIn ← firstConnOrThrow cell entry.ff.scanIn cell.type
    let scanEnable ← firstConnOrThrow cell entry.ff.scanEnable cell.type
    return (scanIn, scanEnable)
  else return (-1, -1)

/-- `build_ff_config`. -/
def buildFfConfig (cell : ParsedCell) : Except FlowError FFConfig := do
  let clockNet ← firstConnOrThrow cell entry.ff.clock cell.type
  let dataNet ← firstConnOrThrow cell entry.ff.data cell.type
  let libPin ← ffOutputPin entry cell
  let outputNet ← firstConnOrThrow cell libPin cell.type
  let clear ← buildFfControl entry.ff.clear cell true
  let preset ← buildFfControl entry.ff.preset cell true
  let enable ← buildFfControl entry.ff.enable cell false
  let scan ← ffScanNets entry cell
  return { trigger := entry.ff.trigger, clockNet := clockNet, dataNet := dataNet,
           outputNet := outputNet, scanInNet := scan.1, scanEnableNet := scan.2,
           clear := clear, preset := preset, enable := enable,
           scanEnablePolarity :=
             if entry.ff.hasScan then entry.ff.scanEnablePolarity else .ACTIVE_HIGH,
           hasScan := entry.ff.hasScan,
           clearPresetConflictValue := entry.ff.clearPresetConflictValue }

/-- The output-pin names `is_output_pin` falls back to. -/
def outputPinNames : List String :=
  ["Y", "YS", "YC", "Q", "X", "CO", "SUM", "S", "YPAD", "DO", "HI", "LO"]

/-- `is_output_pin`: the cell map decides where it can, the name otherwise. -/
def isOutputPin (pin : String) : Bool :=
  match cellMap.lookup cell.type with
  | some entry =>
    if entry.outputs.toList.any fun p => p.2 == pin then true
    else if entry.inputs.contains pin then false
    else outputPinNames.contains pin
  | none => outputPinNames.contains pin

/-- The graph under construction and `next_node_id`. -/
structure Build where
  ng : NormalizedGraph := {}
  nextNodeId : Nat := 1

/-- "Collect nets and alias same-bit groups from netnames". -/
def collectNetnames : NormalizedGraph :=
  mod.netnames.toList.foldl (fun ng p =>
    p.2.foldl (fun ng bit => (ng.ensureNet bit).tagSpecialNet bit p.1) ng) ng

/-- One bit of a port. -/
def collectPortBit (port : ParsedPort) (ng : NormalizedGraph) (bit : YosysNetID) :
    NormalizedGraph :=
  let ng := (ng.ensureNet bit).tagSpecialNet bit name
  if port.direction == "input" then { ng with PIs := ng.PIs.insert bit }
  else if port.direction == "output" then { ng with POs := ng.POs.insert bit }
  else ng

/-- The loop over the ports. -/
def collectPorts : NormalizedGraph :=
  mod.ports.toList.foldl (fun ng p => p.2.bits.foldl (collectPortBit p.1 p.2) ng) ng

/-- The nets of one cell. -/
def ensureConns : NormalizedGraph := cell.conns.toList.foldl (fun ng p => p.2.foldl ensureNet ng) ng

/-- Instance blackboxing: output nets become controllable pseudo-inputs, input
nets become observable test points. -/
def blackboxInstance : NormalizedGraph :=
  cell.conns.toList.foldl (fun ng p =>
    p.2.foldl (fun ng bit =>
      if isOutputPin cellMap cell p.1 then
        { ng with pseudoInputs := ng.pseudoInputs.insert bit }
      else { ng with TPs := ng.TPs.insert bit }) ng) ng

/-- Policy `blackbox`, by pin direction. -/
def blackboxByDirection : NormalizedGraph :=
  cell.conns.toList.foldl (fun ng p =>
    if isOutputPin cellMap cell p.1 then p.2.foldl tagBlackboxed ng else ng) ng

/-- Policy `blackbox` for an unsupported entry: its declared outputs, or the
pin directions when it declares none. -/
def blackboxUnsupported : NormalizedGraph :=
  if entry.outputs.toList.isEmpty then blackboxByDirection cellMap cell ng
  else entry.outputs.toList.foldl (fun ng p =>
    ((cell.conns[p.2]?).getD []).foldl tagBlackboxed ng) ng

/-- `is_scan_wbr`. -/
def isScanWbr : Bool := entry.wbr.present && entry.wbr.scan

/-- The pin of the net a wrapper cell drives. -/
def wbrDrivePin : String :=
  if entry.wbr.isInput then entry.wbr.corePin else entry.wbr.sysPin

/-- The loop over the declared input pins. -/
def connectInputs : Except FlowError (TreeMap String YosysNetID) :=
  entry.inputs.foldlM (fun pins pin =>
    match cell.front? pin with
    | some net => .ok (pins.insert pin net)
    | none =>
      if entry.nodeType = .GATE ∧ entry.wbr.present = false then
        .error (.ParseError ("cell " ++ inst ++ " (type '" ++ cell.type ++
          "'): declared input pin '" ++ pin ++
          "' has no connection — cell-map/compiler pin-name mismatch for this gate type"))
      else .ok pins) ∅

/-- The check for a second driver, then `ng.nets[net].driver = id`. -/
def claimDriver (net : YosysNetID) (id : Nat) : Except FlowError NormalizedGraph :=
  if (ng.driver net).isSome then
    .error (.ParseError ("Multiple drivers on net " ++ toString net))
  else .ok (ng.setDriver net id)

/-- One declared output pin of a cell.  A scan wrapper leaves the net it drives
to its mode multiplexer. -/
def connectOutput (id : Nat) (st : NormalizedGraph × TreeMap String YosysNetID)
    (p : String × String) : Except FlowError (NormalizedGraph × TreeMap String YosysNetID) :=
  if isScanWbr entry && p.1 == wbrDrivePin entry then .ok st
  else match cell.front? p.2 with
    | some net => do
      let ng ← claimDriver st.1 net id
      return (ng, st.2.insert p.1 net)
    | none => .ok st

/-- The tags a flip-flop puts on its clock and asynchronous controls. -/
def tagFf (cfg : FFConfig) : NormalizedGraph :=
  let ng := ng.tagClockNet cfg.clockNet
  let ng := if cfg.clear.present then ng.tagResetNet cfg.clear.net else ng
  if cfg.preset.present then ng.tagResetNet cfg.preset.net else ng

/-- The record of a wrapper cell. -/
def wrapperCell : Except FlowError NormWrapperCell :=
  match cell.front? entry.wbr.corePin, cell.front? entry.wbr.sysPin with
  | some core, some sys =>
    if isScanWbr entry then
      match cell.front? entry.wbr.chainOutPin with
      | some cto => .ok { coreNet := core, sysNet := sys, isInput := entry.wbr.isInput,
                          scan := true, ctoNet := cto }
      | none => .error (.ParseError ("scan WBR cell missing CTO connection: " ++ inst))
    else .ok { coreNet := core, sysNet := sys, isInput := entry.wbr.isInput }
  | _, _ => .error (.ParseError ("WBR cell missing core/sys pin connection: " ++ inst))

/-- `ng.wrapper_cells.push_back(wc)`, for a wrapper cell. -/
def recordWrapper : Except FlowError NormalizedGraph :=
  if entry.wbr.present then do
    let wc ← wrapperCell inst cell entry
    return { ng with wrapperCells := ng.wrapperCells ++ [wc] }
  else return ng

/-- `ng.nodes[node.id] = node`, with the next number taken. -/
def Build.push (b : Build) (ng : NormalizedGraph) (node : NormNode) : Build :=
  { ng := { ng with nodes := ng.nodes ++ [node] }, nextNodeId := b.nextNodeId + 1 }

/-- The mode-multiplexer half of a scan wrapper: `in0` is the functional input,
`in1` the scan-chain output, and it drives the functional output. -/
def addWbrMux (b : Build) : Except FlowError Build :=
  match cell.front? entry.wbr.funcInPin, cell.front? entry.wbr.chainOutPin,
      cell.front? (wbrDrivePin entry) with
  | some cfi, some cto, some drive => do
    let ng ← claimDriver b.ng drive b.nextNodeId
    return b.push ng
      { id := b.nextNodeId, instanceName := inst ++ "$wbrmux", type := .GATE,
        gateType := if entry.wbr.isInput then .WBR_IN else .WBR_OUT,
        inputPins := ((∅ : TreeMap String YosysNetID).insert entry.wbr.funcInPin cfi).insert
          entry.wbr.chainOutPin cto,
        outputPins := (∅ : TreeMap String YosysNetID).insert (wbrDrivePin entry) drive }
  | _, _, _ => .error (.runtimeError "map::at")

/-- The flip-flop configuration of a cell; a gate keeps the default one. -/
def cellFfConfig : Except FlowError FFConfig :=
  if entry.nodeType = .FF then buildFfConfig entry cell else return {}

/-- Elaboration of one supported cell. -/
def elaborateCell (b : Build) : Except FlowError Build := do
  let inputPins ← connectInputs inst cell entry
  let outs ← entry.outputs.toList.foldlM (connectOutput cell entry b.nextNodeId) (b.ng, ∅)
  let ffConfig ← cellFfConfig cell entry
  let ng ← recordWrapper inst cell entry
    (if entry.nodeType = .FF then outs.1.tagFf ffConfig else outs.1)
  let b := b.push ng
    { id := b.nextNodeId, instanceName := inst, type := entry.nodeType,
      gateType := if entry.nodeType = .FF then .DFF else entry.gateType,
      inputPins := inputPins, outputPins := outs.2, ffConfig := ffConfig }
  if isScanWbr entry then addWbrMux inst cell entry b else return b

/-- One turn of the loop over the cells. -/
def cellStep (policy : String) (blackboxInstances : TreeSet String) (b : Build)
    (p : String × ParsedCell) : Except FlowError Build :=
  let ng := ensureConns p.2 b.ng
  if blackboxInstances.contains p.1 then .ok { b with ng := blackboxInstance cellMap p.2 ng }
  else match cellMap.lookup p.2.type with
    | none =>
      if policy == "blackbox" then .ok { b with ng := blackboxByDirection cellMap p.2 ng }
      else .error (.UnsupportedCellError p.2.type)
    | some entry =>
      if entry.unsupported then
        if policy == "blackbox" then
          .ok { b with ng := blackboxUnsupported cellMap p.2 entry ng }
        else .error (.UnsupportedCellError p.2.type)
      else if entry.nodeType = .LATCH ∨ entry.nodeType = .TBUF then
        .error (.UnsupportedCellError p.2.type)
      else elaborateCell p.1 p.2 entry { b with ng := ng }

/-- A node that only drives the net `net`: an `INPUT` source or a constant. -/
def sourceNode (id : Nat) (type : NodeType) (gateType : GateType) (net : YosysNetID) : NormNode :=
  { id := id, type := type, gateType := gateType,
    outputPins := (∅ : TreeMap String YosysNetID).insert "Y" net }

/-- Add a source node and make it the driver of its net. -/
def addSource (b : Build) (type : NodeType) (gateType : GateType) (net : YosysNetID) : Build :=
  b.push (b.ng.setDriver net b.nextNodeId) (sourceNode b.nextNodeId type gateType net)

/-- "PI source pseudo-nodes (INPUT)". -/
def addPi (b : Build) (pi : YosysNetID) : Except FlowError Build :=
  if (b.ng.driver pi).isSome then .error (.ParseError "PI net already has driver")
  else .ok (addSource b .GATE .INPUT pi)

/-- Pseudo-PI source nodes for blackbox output nets; a driven net is skipped. -/
def addPseudoPi (b : Build) (ppi : YosysNetID) : Build :=
  if (b.ng.driver ppi).isSome then b else addSource b .GATE .INPUT ppi

/-- `add_const`, "only when referenced".  A driver the net already has is not
looked at. -/
def addConst (b : Build) (net : YosysNetID) (gateType : GateType) : Build :=
  if b.ng.nets.contains net then addSource b .CONST gateType net else b

/-- The edges that the levels follow: from the driver of an input net to the
node, except into a flip-flop and except from a node to itself. -/
def levelEdges : List (Nat × Nat) :=
  ng.nodes.flatMap fun node =>
    if node.type = .FF then []
    else node.inputPins.toList.filterMap fun p =>
      match (ng.nets[p.2]?).bind NormNet.driver with
      | some d => if d ≠ node.id ∧ d ∈ ng.nodes.map NormNode.id then some (d, node.id) else none
      | none => none

/-- "Levelization": one pass of Kahn's algorithm.  The source fills the queue
in the order of a hash map; the levels do not depend on that order. -/
def levelize : NormalizedGraph :=
  let level := Lib.Kahn.levels (ng.nodes.map NormNode.id) (levelEdges ng)
  { ng with nodes := ng.nodes.map fun node => { node with level := level node.id } }

/-- The graph before the levels are computed. -/
def elaborate (policy : String) (blackboxInstances : TreeSet String) : Except FlowError Build := do
  for name in blackboxInstances.toList do
    if !mod.cells.contains name then
      throw (.ParseError ("blackbox instance not found: " ++ name))
  let ng := collectPorts mod (collectNetnames mod {})
  let b ← mod.cells.toList.foldlM (cellStep cellMap policy blackboxInstances) { ng := ng }
  let b ← b.ng.PIs.toList.foldlM addPi b
  let b := b.ng.pseudoInputs.toList.foldl addPseudoPi b
  let b := addConst b const0NetId .CONST0
  return addConst b const1NetId .CONST1

/-- `NormalizedGraph::from_parsed`. -/
def fromParsed (policy : String) (blackboxInstances : TreeSet String) :
    Except FlowError NormalizedGraph := do
  let b ← elaborate mod cellMap policy blackboxInstances
  return levelize b.ng

end NormalizedGraph

end FaultFlow
