/-
# The wrapper boundary in the ATPG view

`faultflow/scan/wbr_view.py`: `fuse_wbr_into_view` takes the wrapper boundary cells out of
a view.  In INTEST a core net becomes an input or gets an observer, and the ports on the
system side go.  In EXTEST it is the other way round: the system net is driven or observed,
and the core input is tied to `0`.

The cells of a module come in the order of their names, which is the order the source sorts
the records into.
-/

import FaultFlow.Scan.Protocol
import FaultFlow.Scan.Stitch

namespace FaultFlow

open Std (TreeMap)

namespace Scan

/-- `_WBR_IN_TYPES`. -/
def wbrInTypes : List String := ["$wbc_in_faultflow", "\\$wbc_in_faultflow"]

/-- `_WBR_OUT_TYPES`. -/
def wbrOutTypes : List String := ["$wbc_out_faultflow", "\\$wbc_out_faultflow"]

/-- `_WBR_SCAN_IN_TYPES`. -/
def wbrScanInTypes : List String := ["$wbc_in_scan_faultflow", "\\$wbc_in_scan_faultflow"]

/-- `_WBR_SCAN_OUT_TYPES`. -/
def wbrScanOutTypes : List String := ["$wbc_out_scan_faultflow", "\\$wbc_out_scan_faultflow"]

/-- `_WBR_SCAN_CHAIN_PINS`. -/
def wbrScanChainPins : List String := ["CTI", "SE", "CTO"]

/-- The side of the core a wrapper cell stands on. -/
inductive WbrSide where
  | input | output
deriving DecidableEq, Repr

/-- The side of a cell by its type; `none` for a cell that is no wrapper. -/
def wbrSide (type : String) : Option WbrSide :=
  if type ∈ wbrInTypes ∨ type ∈ wbrScanInTypes then some .input
  else if type ∈ wbrOutTypes ∨ type ∈ wbrScanOutTypes then some .output
  else none

/-- The pin on the side of the core: `_WBR_IN_CORE_PIN`, `_WBR_OUT_CORE_PIN`. -/
def WbrSide.corePin : WbrSide → String
  | .input => "TO_CORE"
  | .output => "FROM_CORE"

/-- The pin on the side of the system: `_WBR_IN_SYS_PIN`, `_WBR_OUT_SYS_PIN`. -/
def WbrSide.sysPin : WbrSide → String
  | .input => "FROM_SYS"
  | .output => "TO_SYS"

/-- `WbrRecord`. -/
structure WbrRecord where
  instanceName : String
  coreNet : YosysNetID
  sysNet : YosysNetID
  side : WbrSide
  chainNets : List YosysNetID := []
deriving DecidableEq, Repr

/-- `_single_bit`. -/
def singleBit (cell : Cell) (pin inst : String) : Except ScanError YosysNetID :=
  match intBits ((cell.pin pin).getD []) with
  | [net] => .ok net
  | _ => .error (.notOneBit (inst ++ "." ++ pin))

/-- `_is_constant_bit`. -/
def isConstantBit (cell : Cell) (pin : String) : Bool :=
  match cell.pin pin with
  | some [.lit text] => text ∈ ["0", "1", "x", "z"]
  | _ => false

/-- `_scan_chain_nets`. -/
def scanChainNets (cell : Cell) : List YosysNetID :=
  wbrScanChainPins.flatMap fun pin => intBits ((cell.pin pin).getD [])

/-- The cell has a chain of its own. -/
def isWbrScan (type : String) : Bool := type ∈ wbrScanInTypes ++ wbrScanOutTypes

/-- The record of one cell; a cell with a constant on its core pin has none. -/
def wbrRecord (inst : String) (cell : Cell) : Except ScanError (Option WbrRecord) :=
  match wbrSide cell.type with
  | none => .ok none
  | some side =>
    if isConstantBit cell side.corePin then .ok none
    else do
      return some
        { instanceName := inst
          coreNet := ← singleBit cell side.corePin inst
          sysNet := ← singleBit cell side.sysPin inst
          side := side
          chainNets := if isWbrScan cell.type then scanChainNets cell else [] }

/-- `extract_wbr_cells`. -/
def extractWbrCells (m : Module) : Except ScanError (List WbrRecord) := do
  let records ← m.cells.toList.mapM fun p => wbrRecord p.1 p.2
  return records.filterMap id

/-- `extract_wbr_chain_bits`. -/
def extractWbrChainBits (m : Module) : List YosysNetID :=
  (m.cells.toList.filter fun p => isWbrScan p.2.type).flatMap fun p => scanChainNets p.2

/-- `_drop_top_ports_by_bit`. -/
def Module.dropTopPortsByBit (m : Module) (nets : List YosysNetID) : Module :=
  let dropped := (m.ports.toList.filter fun p =>
    match intBits p.2.bits with
    | [net] => net ∈ nets
    | _ => false).map Prod.fst
  { m with ports := m.ports.eraseMany dropped, netnames := m.netnames.eraseMany dropped }

/-- `OBSERVE_BUF_CELL`. -/
def observeBufCell : String := "$faultflow_observe_buf"

/-- An entry of the `wbr_port_map`; `role` is `"ppi"` or `"ppo"`. -/
structure WbrPort where
  port : String
  role : String
  coreNet : YosysNetID
  sysNet : YosysNetID
deriving DecidableEq, Repr

/-- The view while the wrapper cells are taken out of it. -/
structure Fusion where
  view : Module
  nextId : YosysNetID
  portMap : TreeMap String WbrPort := ∅

/-- A wrapper cell leaves, and a port takes its place. -/
def Fusion.replace (st : Fusion) (rec : WbrRecord) (port role direction : String)
    (net : YosysNetID) : Fusion :=
  { st with
    view := { st.view with cells := st.view.cells.erase rec.instanceName }.addPort port direction net
    portMap := st.portMap.insert rec.instanceName ⟨port, role, rec.coreNet, rec.sysNet⟩ }

/-- A buffer that observes a net, on a new one. -/
def Fusion.observe (st : Fusion) (buffer : String) (net : YosysNetID) : Fusion :=
  { st with
    view.cells := st.view.cells.insert buffer (buf1Cell observeBufCell (.net net) st.nextId)
    nextId := st.nextId + 1 }

/-- One cell in INTEST. -/
def fuseIntestCell (st : Fusion) (rec : WbrRecord) : Fusion :=
  match rec.side with
  | .input => st.replace rec ("__wbi_" ++ rec.instanceName) "ppi" "input" rec.coreNet
  | .output => (st.observe ("$wbobserve_" ++ rec.instanceName) rec.coreNet).replace rec
      ("__wbo_" ++ rec.instanceName) "ppo" "output" st.nextId

/-- The output cells that `extract_wbr_cells` skipped. -/
def constantOutCells (m : Module) : List (String × Cell) :=
  m.cells.toList.filter fun p =>
    wbrSide p.2.type = some .output && isConstantBit p.2 WbrSide.output.corePin

/-- `fuse_wbr_into_view` in INTEST. -/
def fuseIntest (view : Module) : Except ScanError (Module × TreeMap String WbrPort) := do
  let records ← extractWbrCells view
  let fused := records.foldl fuseIntestCell { view := view, nextId := nextNetId view }
  let skipped := constantOutCells fused.view
  let dropped := (records.flatMap fun rec => rec.sysNet :: rec.chainNets) ++
    skipped.flatMap fun p => intBits ((p.2.pin WbrSide.output.sysPin).getD []) ++ scanChainNets p.2
  let m := { fused.view with cells := fused.view.cells.eraseMany (skipped.map Prod.fst) }
  return (m.dropTopPortsByBit dropped, fused.portMap)

/-- `_add_const0_driver_cell`. -/
def Module.addConst0Driver (m : Module) (inst : String) (net : YosysNetID) : Module :=
  { m with cells := m.cells.insert inst (buf1Cell observeBufCell (.lit "0") net) }

/-- One cell in EXTEST. -/
def fuseExtestCell (st : Fusion) (rec : WbrRecord) : Fusion :=
  match rec.side with
  | .input =>
    let st' := (st.observe ("$wbiobserve_" ++ rec.instanceName) rec.sysNet).replace rec
      ("__wbi_obs_" ++ rec.instanceName) "ppo" "output" st.nextId
    { st' with view := st'.view.addConst0Driver ("$wbsafe0_" ++ rec.instanceName) rec.coreNet }
  | .output => st.replace rec ("__wbo_ctl_" ++ rec.instanceName) "ppi" "input" rec.sysNet

/-- `_ppo_bits`. -/
def ppoBits (m : Module) : List YosysNetID :=
  m.ports.toList.filterMap fun p =>
    match intBits p.2.bits with
    | [net] => if ppoPrefix.isPrefixOf p.1 then some net else none
    | _ => none

/-- `_drop_ppo_ports_and_observers`. -/
def Module.dropPpoPortsAndObservers (m : Module) : Module :=
  let observers := m.cells.toList.filter fun p =>
    match intBits ((p.2.pin "Y").getD []) with
    | [net] => net ∈ ppoBits m
    | _ => false
  { ports := m.ports.filter fun name _ => !ppoPrefix.isPrefixOf name
    netnames := m.netnames.filter fun name _ => !ppoPrefix.isPrefixOf name
    cells := m.cells.eraseMany (observers.map Prod.fst) }

/-- `_fuse_wbr_extest`. -/
def fuseExtest (view : Module) : Except ScanError (Module × TreeMap String WbrPort) := do
  let records ← extractWbrCells view
  let fused := records.foldl fuseExtestCell { view := view, nextId := nextNetId view }
  let m := fused.view.dropPpoPortsAndObservers
  return (m.dropTopPortsByBit (records.flatMap WbrRecord.chainNets), fused.portMap)

end Scan

end FaultFlow
