/-
# Scan stitching

`faultflow/scan/stitch.py`: the flip-flops of a netlist that can be scanned are
collected, split into chains, and replaced by generic scan cells whose `SDI` and
`Q` are threaded from a new scan-in port to a new scan-out port.

The functions that copy files and dictionaries around are left out: a netlist is
its top module.  Attributes are kept, since the chains of wrapper cells are read
from them; `hide_name` and `parameters` are not.
-/

import FaultFlow.Scan.ChainLengths
import Mathlib.Data.List.Dedup
import Mathlib.Data.List.Sort

namespace FaultFlow

open Std (TreeMap)

namespace Scan

/-- `YOSYS_SCAN_CELL_TYPE`. -/
def scanCellType : String := "\\$scanff_faultflow"

/-- `YOSYS_SCAN_RESET_CELL_TYPE`. -/
def scanResetCellType : String := "\\$scanff_r_faultflow"

/-- `YOSYS_SCAN_SET_CELL_TYPE`. -/
def scanSetCellType : String := "\\$scanff_s_faultflow"

/-- `SCAN_CELL_TYPES`. -/
def scanCellTypes : List String :=
  ["$scanff_faultflow", scanCellType, "$scanff_r_faultflow", scanResetCellType,
    "$scanff_s_faultflow", scanSetCellType]

/-- `YOSYS_CAPTURE_AND_CELL`. -/
def captureAndCell : String := "\\$faultflow_capture_and"

/-- `YOSYS_CAPTURE_OR_CELL`. -/
def captureOrCell : String := "\\$faultflow_capture_or"

/-- `YOSYS_CAPTURE_INV_CELL`. -/
def captureInvCell : String := "\\$faultflow_capture_inv"

/-- `WBR_SCAN_ATTR`. -/
def wbrScanAttr : String := "faultflow_wbr"

/-- `WBR_CHAIN_ATTR`. -/
def wbrChainAttr : String := "faultflow_wbr_chain"

/-- `WBR_BIT_ATTR`. -/
def wbrBitAttr : String := "wbr_bit"

/-- `ScanCellRecord`. -/
structure ScanCellRecord where
  instanceName : String
  originalType : String
  chainIndex : Int
  chainPosition : Nat
  clockNet : YosysNetID
  dataNet : YosysNetID
  scanInNet : YosysNetID
  scanEnableNet : YosysNetID
  qNet : YosysNetID
deriving DecidableEq, Repr

/-- `IneligibleFF`. -/
structure IneligibleFF where
  instanceName : String
  cellType : String
  reason : String
deriving DecidableEq, Repr

/-- `ScanChainRecord`. -/
structure ScanChainRecord where
  index : Int
  scanIn : String
  scanOut : String
  scanInNet : YosysNetID
  scanOutNet : YosysNetID
  cells : List ScanCellRecord
deriving DecidableEq, Repr

/-- `ScanPlan`; `chain_count` and `cell_count` are lengths. -/
structure ScanPlan where
  clockNets : List YosysNetID
  scanInputs : List String
  scanOutputs : List String
  scanEnable : String
  chains : List ScanChainRecord
  ineligibleFfs : List IneligibleFF
  wrapperChains : List ScanChainRecord
deriving DecidableEq, Repr

/-- `ScanPlan.cells`. -/
def ScanPlan.cells (plan : ScanPlan) : List ScanCellRecord :=
  plan.chains.flatMap ScanChainRecord.cells

/-- `async_kind`. -/
inductive AsyncKind where
  | none | reset | set
deriving DecidableEq, Repr

/-- `_EligibleFF`. -/
structure EligibleFF where
  instanceName : String
  attributes : TreeMap String String
  originalType : String
  clockNet : YosysNetID
  dataNet : YosysNetID
  qNet : YosysNetID
  asyncKind : AsyncKind := .none
  asyncNet : YosysNetID := -1
  enableNet : YosysNetID := -1
  enableLevel : String := "HIGH"
  enableConst : Option Bool := none

/-! ## Collecting the flip-flops -/

/-- `_data_net`: a net, or the core's net for a constant. -/
def dataNet? : Option (List Bit) → Option YosysNetID
  | some [.net id] => some id
  | some [.lit "0"] => some const0NetId
  | some [.lit "1"] => some const1NetId
  | _ => none

/-- `_wire_bit`: a constant's net as its literal. -/
def wireBit (net : YosysNetID) : Bit :=
  if net = const0NetId then .lit "0" else if net = const1NetId then .lit "1" else .net net

/-- `_resolve_enable_bit`. -/
def resolveEnableBit : Option (List Bit) → Option YosysNetID × Option Bool
  | some [.net id] => (some id, none)
  | some [.lit "0"] => (none, some false)
  | some [.lit "1"] => (none, some true)
  | _ => (none, none)

/-- `value if isinstance(value, str) and value else None`. -/
def nonEmpty : Option String → Option String
  | some "" => none
  | other => other

/-- `_async_control`: the first control key that holds something. -/
def asyncControl (ff : FFMeta) : AsyncKind × Option String :=
  let keys := [(ff.clear, AsyncKind.reset), (ff.reset, .reset), (ff.preset, .set), (ff.set, .set)]
  match keys.findSome? (fun p => match p.1 with
    | some (.obj spec) => some (p.2, nonEmpty spec.pin)
    | some (.str pin) => some (p.2, nonEmpty (some pin))
    | _ => none) with
  | some found => found
  | none => (.none, none)

/-- `_enable_control`. -/
def enableControl (ff : FFMeta) : Option String × String :=
  match ff.enable with
  | some (.obj spec) =>
    match nonEmpty spec.pin with
    | some pin =>
      (some pin, match spec.level with
        | some "LOW" => "LOW"
        | _ => "HIGH")
    | none => (none, "HIGH")
  | _ => (none, "HIGH")

/-- `_is_ffish`. -/
def isFfish (cellType : String) : Bool :=
  let lowered := cellType.toList.map Char.toLower
  let within (sub : String) := lowered.tails.any fun t => sub.toList.isPrefixOf t
  within "dff" || "ff".toList.isSuffixOf lowered || within "scanff"

/-- The nets of a pin that `_reason_for_ff` requires. -/
def Cell.maybePin (cell : Cell) (pin : Option String) : Option YosysNetID :=
  pin.bind fun name => maybeOneBit (cell.pin name)

/-- `_reason_for_ff`: why a flip-flop cannot be scanned. -/
def reasonForFf (cell : Cell) (ff : FFMeta) : Option String :=
  let hasClear := ff.clear.isSome || ff.reset.isSome
  let hasPreset := ff.preset.isSome || ff.set.isSome
  if ff.scan.isSome then some "existing_scan_cell"
  else if hasClear && hasPreset then some "has_async_reset_set"
  else if (hasClear || hasPreset) && (cell.maybePin (asyncControl ff).2).isNone then
    some "unsupported_ff_shape"
  else if ff.enable.isSome &&
      ((enableControl ff).1.bind fun pin =>
        let bit := resolveEnableBit (cell.pin pin)
        if bit.1.isNone && bit.2.isNone then none else some ()).isNone then
    some "unsupported_ff_shape"
  else if ff.trigger = some "NEGEDGE" then some "negedge_clock"
  else if ff.trigger ≠ some "POSEDGE" then some "unsupported_ff_shape"
  else if (cell.maybePin (nonEmpty ff.clock)).isNone then some "no_clock_pin"
  else if ((nonEmpty ff.data).bind fun pin => dataNet? (cell.pin pin)).isNone then
    some "no_data_pin"
  else if (cell.maybePin (nonEmpty ff.output)).isNone then some "no_output_pin"
  else none

/-- The record of a flip-flop that `_reason_for_ff` lets through; the pins it
reads are connected then. -/
def eligibleFf (inst : String) (cell : Cell) (ff : FFMeta) : Except ScanError EligibleFF :=
  match cell.maybePin (nonEmpty ff.clock),
      (nonEmpty ff.data).bind (fun pin => dataNet? (cell.pin pin)),
      cell.maybePin (nonEmpty ff.output) with
  | some clockNet, some dataNet, some qNet =>
    let async := asyncControl ff
    let enable := enableControl ff
    let bit := match enable.1 with
      | some pin => resolveEnableBit (cell.pin pin)
      | none => (none, none)
    .ok { instanceName := inst, attributes := cell.attributes, originalType := cell.type
          clockNet := clockNet, dataNet := dataNet, qNet := qNet
          asyncKind := async.1
          asyncNet := (cell.maybePin async.2).getD (-1)
          enableNet := bit.1.getD (-1), enableLevel := enable.2, enableConst := bit.2 }
  | _, _, _ => .error (.notOneBit inst)

/-- One turn of `_collect_ffs`. -/
def collectFf (map : RawCellMap) (st : List EligibleFF × List IneligibleFF)
    (p : String × Cell) : Except ScanError (List EligibleFF × List IneligibleFF) :=
  let refuse (reason : String) := (st.1, st.2 ++ [⟨p.1, p.2.type, reason⟩])
  if p.2.type ∈ scanCellTypes then .ok (refuse "existing_scan_cell")
  else if p.2.attributes.contains wbrScanAttr then .ok (refuse "wbr_scan_cell")
  else match lookupCell map p.2.type with
    | none => .ok (if isFfish p.2.type then refuse "unknown_cell_type" else st)
    | some entry =>
      if entry.nodeType ≠ "FF" then .ok st
      else match entry.ff with
        | none => .ok (refuse "unsupported_ff_shape")
        | some ff =>
          match reasonForFf p.2 ff with
          | some reason => .ok (refuse reason)
          | none => do
            let rec' ← eligibleFf p.1 p.2 ff
            return (st.1 ++ [rec'], st.2)

/-- `_collect_ffs`. -/
def collectFfs (m : Module) (map : RawCellMap) :
    Except ScanError (List EligibleFF × List IneligibleFF) :=
  m.cells.toList.foldlM (collectFf map) ([], [])

/-! ## The plan -/

/-- `_next_net_id`. -/
def nextNetId (m : Module) : YosysNetID :=
  let nets := (m.ports.toList.flatMap fun p => intBits p.2.bits) ++
    (m.netnames.toList.flatMap fun p => intBits p.2) ++
    (m.cells.toList.flatMap fun p => p.2.connections.toList.flatMap fun c => intBits c.2)
  nets.foldl max (-1) + 1

/-- `scan_port_names`. -/
def scanPortNames (chainCount : Nat) (scanInBase scanOutBase : String) :
    Except ScanError (List String × List String) :=
  if chainCount < 1 then .error .chainsBelowOne
  else if chainCount = 1 then .ok ([scanInBase], [scanOutBase])
  else
    let names (base : String) := (List.range chainCount).map fun i => base ++ "_" ++ toString i
    .ok (names scanInBase, names scanOutBase)

/-- `_check_names_free`. -/
def checkNamesFree (m : Module) (names : List String) : Except ScanError Unit :=
  match names.find? fun name => m.ports.contains name || m.netnames.contains name with
  | some name => .error (.nameTaken name)
  | none => if names.Nodup then .ok () else .error .namesNotUnique

/-- The clock nets of some flip-flops, in order. -/
def clockNetsOf (ffs : List EligibleFF) : List YosysNetID :=
  (ffs.map EligibleFF.clockNet).dedup.insertionSort (· ≤ ·)

/-- `_domain_sizes`. -/
def domainSizes (ffs : List EligibleFF) : List Nat :=
  (clockNetsOf ffs).map fun net => ffs.countP fun ff => ff.clockNet = net

/-- The flip-flops by clock net, then by instance. -/
def sortFfs (ffs : List EligibleFF) : List EligibleFF :=
  ffs.insertionSort fun a b =>
    a.clockNet < b.clockNet ∨ (a.clockNet = b.clockNet ∧ a.instanceName ≤ b.instanceName)

/-- The records of one chain, each fed by the `Q` of the one before. -/
def chainCells (chainIndex : Nat) (scanEnableBit : YosysNetID) :
    Nat → YosysNetID → List EligibleFF → List ScanCellRecord
  | _, _, [] => []
  | position, previousQ, ff :: ffs =>
    { instanceName := ff.instanceName, originalType := ff.originalType, chainIndex := chainIndex
      chainPosition := position, clockNet := ff.clockNet, dataNet := ff.dataNet
      scanInNet := previousQ, scanEnableNet := scanEnableBit, qNet := ff.qNet } ::
      chainCells chainIndex scanEnableBit (position + 1) ff.qNet ffs

/-- The last `Q` of a chain, or its scan-in. -/
def chainOut (scanIn : YosysNetID) (ffs : List EligibleFF) : YosysNetID :=
  (ffs.getLast?.map EligibleFF.qNet).getD scanIn

/-- The record of one chain. -/
def chainRecord (scanInputs scanOutputs : List String) (scanInBits : List YosysNetID)
    (scanEnableBit : YosysNetID) (index : Nat) (chainFfs : List EligibleFF) : ScanChainRecord :=
  let scanIn := scanInBits.getD index 0
  { index := index, scanIn := scanInputs.getD index "", scanOut := scanOutputs.getD index ""
    scanInNet := scanIn, scanOutNet := chainOut scanIn chainFfs
    cells := chainCells index scanEnableBit 0 scanIn chainFfs }

/-- The loop over the chain lengths: each chain takes the next flip-flops. -/
def buildChains (scanInputs scanOutputs : List String) (scanInBits : List YosysNetID)
    (scanEnableBit : YosysNetID) :
    Nat → List EligibleFF → List Nat → Except ScanError (List ScanChainRecord)
  | _, _, [] => .ok []
  | index, ffs, length :: lengths => do
    let chainFfs := ffs.take length
    if (clockNetsOf chainFfs).length > 1 then
      throw (.spansDomains index (clockNetsOf chainFfs))
    let rest ← buildChains scanInputs scanOutputs scanInBits scanEnableBit (index + 1)
      (ffs.drop length) lengths
    return chainRecord scanInputs scanOutputs scanInBits scanEnableBit index chainFfs :: rest

/-- The check of the lengths against `max_chain_length`. -/
def checkLengths (maxChainLength : Option Nat) (lengths : List Nat) : Except ScanError Unit :=
  match maxChainLength with
  | none => .ok ()
  | some limit =>
    match lengths.find? fun length => limit < length with
    | some length => .error (.chainTooLong length limit)
    | none => .ok ()

/-- `_build_plan`. -/
def buildPlan (m : Module) (eligible : List EligibleFF) (ineligible : List IneligibleFF)
    (scanChains : Nat) (maxChainLength : Option Nat) (scanInBase scanOutBase scanEnable : String)
    (scanEnableBit : YosysNetID) (scanInBits : List YosysNetID) : Except ScanError ScanPlan := do
  if eligible.isEmpty then
    throw (.noEligible ((ineligible.map IneligibleFF.reason).dedup.insertionSort (· ≤ ·)))
  let ffs := sortFfs eligible
  let sizes := domainSizes ffs
  let chainCount ← chainCountFromOptions sizes scanChains maxChainLength
  if chainCount < (clockNetsOf eligible).length then
    throw (.chainsBelowDomains chainCount (clockNetsOf eligible).length)
  let lengths ← chainLengths sizes chainCount
  checkLengths maxChainLength lengths
  let names ← scanPortNames chainCount scanInBase scanOutBase
  checkNamesFree m (names.1 ++ names.2 ++ [scanEnable])
  let chains ← buildChains names.1 names.2 scanInBits scanEnableBit 0 ffs lengths
  return { clockNets := clockNetsOf eligible, scanInputs := names.1, scanOutputs := names.2
           scanEnable := scanEnable, chains := chains, ineligibleFfs := ineligible
           wrapperChains := [] }

/-! ## The wrapper chains -/

/-- `_WBRCell`. -/
structure WbrCell where
  instanceName : String
  cellType : String
  chainGroup : Int
  bitPos : Int
  clockNet : YosysNetID
  ctiNet : YosysNetID
  ctoNet : YosysNetID
  seNet : YosysNetID
  funcNet : YosysNetID
deriving DecidableEq, Repr

/-- `int(str(attrs.get(key, "0")))`. -/
def intAttr (cell : Cell) (key inst : String) : Except ScanError Int :=
  match ((cell.attributes[key]?).getD "0").toInt? with
  | some n => .ok n
  | none => .error (.notOneBit (inst ++ "." ++ key))

/-- `_one_bit`. -/
def oneBit (cell : Cell) (inst pin : String) : Except ScanError YosysNetID :=
  match maybeOneBit (cell.pin pin) with
  | some net => .ok net
  | none => .error (.notOneBit (inst ++ "." ++ pin))

/-- One cell of `_collect_wbr_cells`. -/
def wbrCell (map : RawCellMap) (inst : String) (cell : Cell) : Except ScanError WbrCell := do
  let some entry := lookupCell map cell.type | throw (.unmapped inst cell.type)
  let wbr := entry.wbr.getD {}
  if !wbr.scan then throw (.notWbrScan inst cell.type)
  let chainGroup ← intAttr cell wbrChainAttr inst
  let bitPos ← intAttr cell wbrBitAttr inst
  let funcNet := (maybeOneBit (cell.pin (wbr.funcInPin.getD "FROM_SYS"))).getD (-1)
  let clockNet ← oneBit cell inst (wbr.clockPin.getD "CLK")
  let ctiNet ← oneBit cell inst (wbr.chainInPin.getD "CTI")
  let ctoNet ← oneBit cell inst (wbr.chainOutPin.getD "CTO")
  let seNet ← oneBit cell inst (wbr.scanEnablePin.getD "SE")
  return { instanceName := inst, cellType := cell.type, chainGroup := chainGroup, bitPos := bitPos
           clockNet := clockNet, ctiNet := ctiNet, ctoNet := ctoNet, seNet := seNet
           funcNet := funcNet }

/-- `_collect_wbr_cells`. -/
def collectWbrCells (m : Module) (map : RawCellMap) : Except ScanError (List WbrCell) := do
  let cells ← (m.cells.toList.filter fun p => p.2.attributes.contains wbrScanAttr).mapM
    fun p => wbrCell map p.1 p.2
  return cells.insertionSort fun a b =>
    a.chainGroup < b.chainGroup ∨ (a.chainGroup = b.chainGroup ∧ a.bitPos ≤ b.bitPos)

/-- The record of a wrapper cell. -/
def WbrCell.record (cell : WbrCell) (position : Nat) : ScanCellRecord :=
  { instanceName := cell.instanceName, originalType := cell.cellType
    chainIndex := cell.chainGroup, chainPosition := position
    clockNet := cell.clockNet, dataNet := if cell.funcNet ≥ 0 then cell.funcNet else 0
    scanInNet := cell.ctiNet, scanEnableNet := cell.seNet, qNet := cell.ctoNet }

/-- One group of `_build_wrapper_chains`. -/
def wrapperChain (m : Module) (groups : Nat) (cells : List WbrCell) (group : Int) :
    Except ScanError ScanChainRecord :=
  let name (base : String) := if groups = 1 then base else base ++ "_" ++ toString group
  let members := (cells.filter fun c => c.chainGroup = group).insertionSort
    fun a b => a.bitPos ≤ b.bitPos
  match maybeOneBit ((m.ports[name "wbr_si"]?).map Port.bits) with
  | none => .error (.missingWrapperPort (name "wbr_si"))
  | some siNet =>
    .ok { index := group, scanIn := name "wbr_si", scanOut := name "wbr_so", scanInNet := siNet
          scanOutNet := (members.getLast?.map WbrCell.ctoNet).getD siNet
          cells := members.zipIdx.map fun p => p.1.record p.2 }

/-- `_build_wrapper_chains`. -/
def buildWrapperChains (m : Module) (cells : List WbrCell) :
    Except ScanError (List ScanChainRecord) :=
  let groups := (cells.map WbrCell.chainGroup).dedup.insertionSort (· ≤ ·)
  groups.mapM (wrapperChain m groups.length cells)

/-! ## Rewriting the netlist -/

/-- `_add_port`. -/
def Module.addPort (m : Module) (name direction : String) (net : YosysNetID) : Module :=
  { m with
    ports := m.ports.insert name { direction := direction, bits := [.net net] }
    netnames := m.netnames.insert name [.net net] }

/-- A cell by its type and its pins, inputs first. -/
def internalCell (type : String) (inputs : List (String × Bit)) (output : String × Bit) : Cell :=
  { type := type
    attributes := TreeMap.ofList [("faultflow_internal", "1")]
    portDirections := TreeMap.ofList (inputs.map (fun p => (p.1, "input")) ++ [(output.1, "output")])
    connections := TreeMap.ofList ((inputs ++ [output]).map fun p => (p.1, [p.2])) }

/-- `_add_internal_buf1_cell`. -/
def buf1Cell (type : String) (a : Bit) (y : YosysNetID) : Cell :=
  internalCell type [("A", a)] ("Y", .net y)

/-- `_add_internal_gate2_cell`. -/
def gate2Cell (type : String) (a b : Bit) (y : YosysNetID) : Cell :=
  internalCell type [("A", a), ("B", b)] ("Y", .net y)

/-- `_add_enable_hold_mux`: the data net while the enable is active, the output
otherwise. -/
def addEnableHoldMux (cells : TreeMap String Cell) (inst : String) (d : Bit) (q enable : YosysNetID)
    (level : String) (nextId : YosysNetID) : TreeMap String Cell × YosysNetID × YosysNetID :=
  let notEnable := nextId
  let dGate := if level = "HIGH" then enable else notEnable
  let qGate := if level = "HIGH" then notEnable else enable
  let dGated := nextId + 1
  let qGated := nextId + 2
  let muxed := nextId + 3
  let cells := cells.insert ("$ffenmux_inv_" ++ inst)
    (buf1Cell captureInvCell (.net enable) notEnable)
  let cells := cells.insert ("$ffenmux_d_" ++ inst) (gate2Cell captureAndCell d (.net dGate) dGated)
  let cells := cells.insert ("$ffenmux_q_" ++ inst)
    (gate2Cell captureAndCell (.net q) (.net qGate) qGated)
  let cells := cells.insert ("$ffenmux_or_" ++ inst)
    (gate2Cell captureOrCell (.net dGated) (.net qGated) muxed)
  (cells, muxed, nextId + 4)

/-- The control pin of the scan cell that replaces a flip-flop. -/
def EligibleFF.controlPin (ff : EligibleFF) : Option String :=
  match ff.asyncKind with
  | .none => none
  | .reset => some "RESET_B"
  | .set => some "SET_B"

/-- The type of the scan cell that replaces a flip-flop. -/
def EligibleFF.scanType (ff : EligibleFF) : String :=
  match ff.asyncKind with
  | .none => scanCellType
  | .reset => scanResetCellType
  | .set => scanSetCellType

/-- The scan cell that replaces a flip-flop. -/
def scanCell (ff : EligibleFF) (record : ScanCellRecord) (d : Bit) : Cell :=
  let inputs := [("CLK", Bit.net record.clockNet), ("D", d), ("SDI", .net record.scanInNet),
      ("SE", .net record.scanEnableNet)] ++
    (ff.controlPin.map fun pin => (pin, Bit.net ff.asyncNet)).toList
  { type := ff.scanType
    attributes := ff.attributes.insertMany
      [("faultflow_original_type", record.originalType), ("faultflow_scan", "1"),
       ("faultflow_scan_chain", toString record.chainIndex),
       ("faultflow_scan_index", toString record.chainPosition)]
    portDirections := TreeMap.ofList (inputs.map (fun p => (p.1, "input")) ++ [("Q", "output")])
    connections := TreeMap.ofList
      ((inputs ++ [("Q", Bit.net record.qNet)]).map fun p => (p.1, [p.2])) }

/-- One turn of the loop over the records: the hold multiplexer an enable needs,
then the scan cell. -/
def replaceFf (byInstance : String → Option EligibleFF)
    (st : TreeMap String Cell × YosysNetID) (record : ScanCellRecord) :
    TreeMap String Cell × YosysNetID :=
  match byInstance record.instanceName with
  | none => st
  | some ff =>
    let d := wireBit record.dataNet
    if ff.enableNet ≠ -1 then
      let mux := addEnableHoldMux st.1 record.instanceName d record.qNet ff.enableNet
        ff.enableLevel st.2
      (mux.1.insert record.instanceName (scanCell ff record (.net mux.2.1)), mux.2.2)
    else
      let d := match ff.enableConst with
        | none => d
        | some value =>
          if (if ff.enableLevel = "HIGH" then value else !value) then d else .net record.qNet
      (st.1.insert record.instanceName (scanCell ff record d), st.2)

/-- The netlist with the flip-flops of a plan replaced. -/
def applyPlan (m : Module) (eligible : List EligibleFF) (plan : ScanPlan)
    (scanEnableBit : YosysNetID) : Module :=
  let m := plan.chains.foldl (fun m c => m.addPort c.scanIn "input" c.scanInNet) m
  let m := m.addPort plan.scanEnable "input" scanEnableBit
  let byInstance inst := eligible.find? fun ff => ff.instanceName = inst
  let cells := (plan.cells.foldl (replaceFf byInstance) (m.cells, scanEnableBit + 1)).1
  plan.chains.foldl (fun m c => m.addPort c.scanOut "output" c.scanOutNet) { m with cells := cells }

/-- `stitch_scan_json`: the netlist with its scan chains, and the plan. -/
def stitchScan (m : Module) (map : RawCellMap) (scanChains : Nat) (maxChainLength : Option Nat)
    (scanInBase scanOutBase scanEnable : String) : Except ScanError (Module × ScanPlan) := do
  let ffs ← collectFfs m map
  let chainCount ← chainCountFromOptions (domainSizes ffs.1) scanChains maxChainLength
  let nextId := nextNetId m
  let scanInBits := (List.range chainCount).map fun i => nextId + i
  let scanEnableBit := nextId + chainCount
  let plan ← buildPlan m ffs.1 ffs.2 scanChains maxChainLength scanInBase scanOutBase scanEnable
    scanEnableBit scanInBits
  let wbrCells ← collectWbrCells m map
  let wrapperChains ← buildWrapperChains m wbrCells
  return (applyPlan m ffs.1 plan scanEnableBit, { plan with wrapperChains := wrapperChains })

end Scan

end FaultFlow
