/-
# The ATPG view of a stitched netlist

`faultflow/scan/atpg_view.py`: `build_scan_atpg_view` takes the scan flip-flops out of a
stitched netlist.  What read a flip-flop reads an input `__ppi_` instead, and what the
flip-flop would capture is observed at an output `__ppo_`.  An asynchronous control acts on
both, through a buffer that stands for its pin.

Flip-flops are taken out in the order of their instances, each from the netlist the ones
before left.  Keys of fault sites and the question whether a data net has other readers go
by the stitched netlist.  The index of nets that the source keeps is left out: a net is
looked up in the module.  So are the names of nets that are only reported.
-/

import FaultFlow.Scan.SiteResolution

namespace FaultFlow

open Std (TreeMap)

namespace Scan

/-- `D_BRANCH_BUF_CELL`. -/
def dBranchBufCell : String := "$faultflow_d_branch_buf"

/-- `CAPTURE_AND_CELL`. -/
def bareCaptureAndCell : String := "$faultflow_capture_and"

/-- `CAPTURE_OR_CELL`. -/
def bareCaptureOrCell : String := "$faultflow_capture_or"

/-- `CAPTURE_INV_CELL`. -/
def bareCaptureInvCell : String := "$faultflow_capture_inv"

/-- `SCAN_RESET_TYPES`. -/
def scanResetTypes : List String := ["$scanff_r_faultflow", scanResetCellType]

/-- `SCAN_SET_TYPES`. -/
def scanSetTypes : List String := ["$scanff_s_faultflow", scanSetCellType]

/-- `stem_site_key`. -/
def stemSiteKey (net : YosysNetID) : String := "net:" ++ toString net ++ ":stem"

/-- `_ppi_name`. -/
def ppiName (inst : String) : String := ppiPrefix ++ inst

/-- `_ppo_name`. -/
def ppoName (inst : String) : String := ppoPrefix ++ inst

/-- What a boundary says of the capture of a flip-flop. -/
structure CaptureBoundary where
  dBoundarySiteKey : String
  dObserveNetId : YosysNetID
  qStemNetId : YosysNetID
deriving DecidableEq, Repr

/-- An entry of the `pseudo_port_map`.  A flip-flop outside the active clock domain has no
output port and no capture. -/
structure ViewEntry where
  ppiPort : String
  ppoPort : Option String
  ppiNetId : YosysNetID
  qDriveNetId : YosysNetID
  ppoNetId : Option YosysNetID
  chainId : ℤ
  positionInChain : ℤ
  clockNet : YosysNetID
  capture : Option CaptureBoundary
  controlBoundary : Option (String × YosysNetID)
deriving DecidableEq, Repr

/-- The part of an entry that patterns are made from. -/
def ViewEntry.toPseudoPort (entry : ViewEntry) : PseudoPort :=
  { chainId := entry.chainId, positionInChain := entry.positionInChain
    ppiPort := entry.ppiPort, ppoPort := entry.ppoPort }

/-! ## Nets and their readers -/

/-- `_nets_used_by_cells`. -/
def Module.netsUsedByCells (m : Module) : List YosysNetID :=
  m.cells.toList.flatMap fun p => p.2.connections.toList.flatMap fun c => intBits c.2

variable (m : Module) (text : String) (net : YosysNetID)

/-- `consumer_count`: the pins on a net. -/
def Module.consumerCount : ℕ :=
  (m.cells.toList.map fun p => p.2.connections.toList.countP fun c => net ∈ intBits c.2).sum

/-- A bit with another net for one of its nets. -/
def Bit.replace (old new : YosysNetID) (bit : Bit) : Bit :=
  if bit = .net old then .net new else bit

/-- The connections of a pin after `rewire`: a pin that the net is on keeps its nets only. -/
def rewirePin (old new : YosysNetID) (bits : List Bit) : List Bit :=
  if old ∈ intBits bits then (intBits bits).map fun n => .net (if n = old then new else n) else bits

/-- `rewire`: `new` for `old` everywhere but at the excluded ports. -/
def Module.rewire (old new : YosysNetID) (excludedPorts : List String) : Module :=
  { cells := m.cells.map fun _ cell =>
      { cell with connections := cell.connections.map fun _ bits => rewirePin old new bits }
    ports := m.ports.map fun name port =>
      if name ∈ excludedPorts then port
      else { port with bits := port.bits.map (Bit.replace old new) }
    netnames := m.netnames.map fun name bits =>
      if name ∈ excludedPorts then bits else bits.map (Bit.replace old new) }

/-- `_current_data_net`. -/
def currentDataNet (cell : Cell) (fallback : YosysNetID) : YosysNetID :=
  match intBits ((cell.pin "D").getD []) with
  | [net] => net
  | _ => fallback

/-- A literal as the parser sees it: `_parsed_net`. -/
def parsedLit : String := if text = "x" ∨ text = "z" then "0" else text

/-- The net of a constant: `CONST_NETS`. -/
def constNet : Option YosysNetID :=
  if text = "0" then some const0NetId else if text = "1" then some const1NetId else none

/-- `_constant_data`: the constant on `D`, and its net. -/
def constantData (cell : Cell) : Option (String × YosysNetID) :=
  match cell.pin "D" with
  | some [.lit text] => (constNet (parsedLit text)).map fun net => (parsedLit text, net)
  | _ => none

/-- `_constant_readers`, of one constant: the input pins that read it. -/
def Module.constantReaders : ℕ :=
  (m.cells.toList.map fun p => p.2.connections.toList.countP fun c =>
    p.2.portDirections[c.1]? ≠ some "output" ∧
      c.2.any fun
        | .lit t => parsedLit t = text
        | .net _ => false).sum

/-! ## Asynchronous controls -/

/-- `_async_capture_control`: the kind, the pin and the net. -/
structure AsyncControl where
  kind : AsyncKind
  pin : String
  net : YosysNetID
deriving DecidableEq, Repr

/-- `_async_capture_control`. -/
def asyncCaptureControl (cell : Cell) : Option AsyncControl :=
  let control (kind : AsyncKind) (pin : String) : Option AsyncControl :=
    (intBits ((cell.pin pin).getD [])).head?.map fun net => { kind, pin, net }
  if cell.type ∈ scanResetTypes then control .reset "RESET_B"
  else if cell.type ∈ scanSetTypes then control .set "SET_B"
  else none

/-- The view while the flip-flops are taken out of it. -/
structure ViewState where
  module : Module
  nextId : YosysNetID
  entries : TreeMap String ViewEntry := ∅

namespace ViewState

variable (st : ViewState)

/-- A new cell that drives a new net. -/
def emit (inst : String) (cell : YosysNetID → Cell) : ViewState × YosysNetID :=
  ({ st with
      module := { st.module with cells := st.module.cells.insert inst (cell st.nextId) }
      nextId := st.nextId + 1 }, st.nextId)

/-- A new port on a new net. -/
def emitPort (name direction : String) : ViewState × YosysNetID :=
  ({ st with module := st.module.addPort name direction st.nextId, nextId := st.nextId + 1 },
    st.nextId)

/-- `_add_ctrl_branch`: the buffer that stands for the control pin. -/
def addCtrlBranch (inst : String) (control : AsyncControl) : ViewState × YosysNetID :=
  st.emit ("$ffctrlbranch_" ++ inst) (buf1Cell dBranchBufCell (.net control.net))

/-- `_ctrl_mux`: the value the control forces while it is low, `dataIn` otherwise. -/
def ctrlMux (inst suffix : String) (dataIn : YosysNetID) (kind : AsyncKind) (branch : YosysNetID) :
    ViewState × YosysNetID :=
  match kind with
  | .reset => st.emit ("$ff" ++ suffix ++ "rstmux_" ++ inst)
      (gate2Cell bareCaptureAndCell (.net dataIn) (.net branch))
  | _ =>
    let inv := st.emit ("$ff" ++ suffix ++ "setinv_" ++ inst)
      (buf1Cell bareCaptureInvCell (.net branch))
    inv.1.emit ("$ff" ++ suffix ++ "setmux_" ++ inst)
      (gate2Cell bareCaptureOrCell (.net dataIn) (.net inv.2))

/-- `_ctrl_mux`, if there is a control. -/
def ctrlMux? (inst suffix : String) (dataIn : YosysNetID)
    (control : Option (AsyncControl × YosysNetID)) : ViewState × YosysNetID :=
  match control with
  | some (control, branch) => st.ctrlMux inst suffix dataIn control.kind branch
  | none => (st, dataIn)

end ViewState

/-! ## The data pin -/

/-- The data pin of a flip-flop: as the view has it, its net in the stitched netlist, and
whether that has other readers. -/
structure DataPin where
  bit : Bit
  genericNet : YosysNetID
  shared : Bool
deriving DecidableEq, Repr

/-- The data pin of a record. -/
def dataPin (source : Module) (live sourceCell : Cell) (record : ScanCellRecord) : DataPin :=
  match constantData sourceCell with
  | some (text, net) =>
    { bit := .lit text, genericNet := net, shared := 1 < source.constantReaders text }
  | none =>
    let net := currentDataNet sourceCell record.dataNet
    { bit := .net (currentDataNet live record.dataNet), genericNet := net
      shared := 1 < source.consumerCount net }

/-- `_resolve_d_observe_boundary`: the net that is observed, and the key of its site. -/
def resolveDObserveBoundary (st : ViewState) (inst : String) (pin : DataPin) :
    ViewState × YosysNetID × String :=
  match pin.bit, pin.shared with
  | .net net, false => (st, net, stemSiteKey pin.genericNet)
  | bit, shared =>
    let out := st.emit ("$ffbranch_" ++ inst) (buf1Cell dBranchBufCell bit)
    (out.1, out.2,
      if shared then branchSiteKey pin.genericNet inst "D" else stemSiteKey pin.genericNet)

/-! ## One flip-flop -/

/-- What all flip-flops are taken out with. -/
structure ViewContext where
  source : Module
  scanPortNames : List String
  activeClockNet : Option YosysNetID := none

/-- The buffer of an asynchronous control, and the key of its pin in the stitched netlist. -/
def ctrlBranch (st : ViewState) (cell sourceCell : Cell) (inst : String) :
    ViewState × Option (AsyncControl × YosysNetID) × Option (String × YosysNetID) :=
  match asyncCaptureControl cell with
  | none => (st, none, none)
  | some control =>
    let branch := st.addCtrlBranch inst control
    let genericNet := ((asyncCaptureControl sourceCell).map AsyncControl.net).getD control.net
    (branch.1, some (control, branch.2),
      some (branchSiteKey genericNet inst control.pin, branch.2))

/-- The output port of a flip-flop, with what it observes. -/
def addCapture (st : ViewState) (record : ScanCellRecord) (pin : DataPin)
    (control : Option (AsyncControl × YosysNetID)) : ViewState × YosysNetID × CaptureBoundary :=
  let ppo := st.emitPort (ppoName record.instanceName) "output"
  let observed := resolveDObserveBoundary ppo.1 record.instanceName pin
  let muxed := observed.1.ctrlMux? record.instanceName "d" observed.2.1 control
  ({ muxed.1 with module := { muxed.1.module with
        cells := muxed.1.module.cells.insert ("$ffobserve_" ++ record.instanceName)
          (buf1Cell observeBufCell (.net muxed.2) ppo.2) } },
    ppo.2,
    { dBoundarySiteKey := observed.2.2, dObserveNetId := observed.2.1, qStemNetId := record.qNet })

/-- The input that stands for the state of a flip-flop, and the net its readers read. -/
def addDrive (ctx : ViewContext) (st : ViewState) (record : ScanCellRecord)
    (control : Option (AsyncControl × YosysNetID)) : ViewState × YosysNetID × YosysNetID :=
  let ppi := st.emitPort (ppiName record.instanceName) "input"
  let drive := ppi.1.ctrlMux? record.instanceName "q" ppi.2 control
  ({ drive.1 with module := drive.1.module.rewire record.qNet drive.2 ctx.scanPortNames },
    ppi.2, drive.2)

/-- A scan flip-flop leaves the view. -/
def takeOut (ctx : ViewContext) (st : ViewState) (record : ScanCellRecord) (cell : Cell) :
    ViewState :=
  let inst := record.instanceName
  let sourceCell := (ctx.source.cells[inst]?).getD { type := "" }
  let branch := ctrlBranch st cell sourceCell inst
  let drive := addDrive ctx branch.1 record branch.2.1
  let live := (drive.1.module.cells[inst]?).getD cell
  let pin := dataPin ctx.source live sourceCell record
  let active := ctx.activeClockNet.isNone || ctx.activeClockNet = some record.clockNet
  let capture := if active then
      let out := addCapture drive.1 record pin branch.2.1
      (out.1, some out.2)
    else (drive.1, none)
  let m := capture.1.module
  { capture.1 with
    module := { m with cells := m.cells.erase inst }
    entries := st.entries.insert inst
      { ppiPort := ppiName inst, ppoPort := capture.2.map fun _ => ppoName inst
        ppiNetId := drive.2.1, qDriveNetId := drive.2.2, ppoNetId := capture.2.map Prod.fst
        chainId := record.chainIndex, positionInChain := record.chainPosition
        clockNet := record.clockNet, capture := capture.2.map Prod.snd
        controlBoundary := branch.2.2 } }

/-- One turn of the loop over the records. -/
def viewRecord (ctx : ViewContext) (st : ViewState) (record : ScanCellRecord) :
    Except ScanError ViewState :=
  match st.module.cells[record.instanceName]? with
  | none => .error (.scanCellMissing record.instanceName)
  | some cell =>
    if cell.type ∈ scanCellTypes then .ok (takeOut ctx st record cell)
    else .error (.notScanCell record.instanceName)

/-! ## The ports -/

/-- `_manifest_scan_port_names`. -/
def ScanPlan.scanPortNames (plan : ScanPlan) : List String :=
  plan.scanEnable :: (plan.scanInputs ++ plan.scanOutputs)

/-- `_clock_port_name`. -/
def clockPortName (clockNet : YosysNetID) : Option String :=
  (m.ports.toList.find? fun p => intBits p.2.bits = [clockNet]).map Prod.fst

/-- A port of one net that no cell is on. -/
def Module.dangling (name : String) : Bool :=
  match (m.ports[name]?).map fun port => intBits port.bits with
  | some [net] => net ∉ m.netsUsedByCells
  | _ => false

/-- `_drop_dangling_scan_ports`. -/
def Module.dropDanglingScanPorts (plan : ScanPlan) : Module :=
  let names := plan.scanPortNames ++ plan.clockNets.filterMap (clockPortName m)
  let dropped := names.filter m.dangling
  { m with ports := m.ports.eraseMany dropped, netnames := m.netnames.eraseMany dropped }

/-- The pins that read a net. -/
def Module.readers : ℕ :=
  (m.cells.toList.map fun p => (p.2.connections.toList.map fun c =>
    if p.2.portDirections[c.1]? = some "output" then 0 else (intBits c.2).count net).sum).sum

/-- The primary outputs on a net. -/
def Module.outputsOn : List String :=
  (m.ports.toList.filter fun p => p.2.direction = "output" ∧
    ¬ ppoPrefix.toList.isPrefixOf p.1.toList ∧ net ∈ intBits p.2.bits).map Prod.fst

/-- One turn of `_branch_flop_outputs`. -/
def branchFlopOutput (readers : YosysNetID → ℕ) (st : Module × YosysNetID)
    (p : String × ViewEntry) : Module × YosysNetID :=
  let net := p.2.qDriveNetId
  let outputs := st.1.outputsOn net
  if readers net = 1 ∧ outputs ≠ [] then
    ({ cells := st.1.cells.insert ("$ffqpo_" ++ p.1) (buf1Cell dBranchBufCell (.net net) st.2)
       ports := st.1.ports.map fun name port =>
        if name ∈ outputs then { port with bits := port.bits.map (Bit.replace net st.2) } else port
       netnames := st.1.netnames.map fun name bits =>
        if name ∈ outputs then bits.map (Bit.replace net st.2) else bits }, st.2 + 1)
  else st

/-- `_branch_flop_outputs`: the one reader of a flip-flop that also drives a primary output
is kept apart from that output. -/
def Module.branchFlopOutputs (entries : TreeMap String ViewEntry) : Module :=
  (entries.toList.foldl (branchFlopOutput m.readers) (m, nextNetId m)).1

/-! ## The view -/

/-- `_scan_cell_records`. -/
def ScanPlan.recordsByInstance (plan : ScanPlan) : List ScanCellRecord :=
  plan.cells.insertionSort fun a b => a.instanceName ≤ b.instanceName

/-- `build_scan_atpg_view`: the view, and the map of pseudo-ports. -/
def buildScanAtpgView (generic : Module) (plan : ScanPlan) (activeClockNet : Option YosysNetID) :
    Except ScanError (Module × TreeMap String ViewEntry) := do
  let records := plan.recordsByInstance
  if records.isEmpty then return (generic, ∅)
  let instances := records.map ScanCellRecord.instanceName
  checkNamesFree generic (instances.map ppiName ++ instances.map ppoName)
  let ctx : ViewContext :=
    { source := generic, scanPortNames := plan.scanPortNames, activeClockNet := activeClockNet }
  let st ← records.foldlM (viewRecord ctx) { module := generic, nextId := nextNetId generic }
  return ((st.module.dropDanglingScanPorts plan).branchFlopOutputs st.entries, st.entries)

end Scan

end FaultFlow
