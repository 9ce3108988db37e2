/-
# Where the ATPG view grades a fault

`faultflow/scan/site_resolution.py`: the faults of a scan campaign are enumerated on the
generic netlist and graded on a reduced view.  `build_scan_execution_map` gives every site
of the generic netlist the net of the view that stands for it, or a reason to leave it out.

Of the map of pseudo-ports the boundary entries are kept.  A site key that names the stem of
a flip-flop's output is kept as the number in it.
-/

import FaultFlow.IR.Sites
import FaultFlow.Scan.WbrView

namespace FaultFlow

open Std (TreeMap)

namespace Scan

/-- A row of `list_site_keys`; `consumer` is the instance and the pin of a branch. -/
structure SiteRow where
  siteKey : String
  yosysNetId : YosysNetID
  compiledNetIndex : CompiledNetIndex
  consumer : Option (String × String) := none
deriving DecidableEq, Repr

/-- `list_site_keys`. -/
def listSiteKeys (cg : CompiledSimGraph) : Except FlowError (List SiteRow) :=
  (List.range cg.netCount).mapM fun cidx => do
    let key ← canonicalSiteKey cg cidx
    let site := cg.netSites cidx
    return { siteKey := key, yosysNetId := cg.yosysOf cidx, compiledNetIndex := cidx
             consumer := if site.kind = .BRANCH then some (site.consumerInstance, site.inputPin)
               else none }

/-- The key of a branch: `canonical_site_key` of a `SiteProvenance`. -/
def branchSiteKey (net : YosysNetID) (inst pin : String) : String :=
  "net:" ++ toString net ++ ":branch:" ++ inst ++ ":" ++ pin

/-- What the map of pseudo-ports says of a scan flip-flop. -/
structure BoundaryEntry where
  ppiNetId : YosysNetID
  qDriveNetId : YosysNetID
  qStemNetId : YosysNetID
  dBoundarySiteKey : String
  dObserveNetId : YosysNetID
  controlBoundary : Option (String × YosysNetID) := none
deriving DecidableEq, Repr

/-- The reasons to leave a site out. -/
inductive MapTag where
  | wbrDecoupled | scanChain | scanInternal | crossDomain
deriving DecidableEq, Repr

/-- What the resolution reads of the manifest. -/
structure ScanPorts where
  scanInputs : List String
  scanEnable : String
deriving DecidableEq, Repr

/-- The nets of some ports. -/
def portNets (m : Module) (names : List String) : List YosysNetID :=
  names.flatMap fun name => intBits (((m.ports[name]?).map Port.bits).getD [])

/-- The tables of the reduced view. -/
structure ReducedView where
  module : Module
  rows : List SiteRow

namespace ReducedView

variable (view : ReducedView)

/-- `reduced_by_key`. -/
def byKey : TreeMap String CompiledNetIndex :=
  view.rows.foldl (fun m row => m.insert row.siteKey row.compiledNetIndex) ∅

/-- `reduced_stems`. -/
def stems : TreeMap YosysNetID CompiledNetIndex :=
  view.rows.foldl (fun m row =>
    if row.consumer.isNone then m.insert row.yosysNetId row.compiledNetIndex else m) ∅

/-- `reduced_fanout_yids`. -/
def fanoutNets : List YosysNetID :=
  (view.rows.filter fun row => row.consumer.isSome).map SiteRow.yosysNetId

/-- `reduced_output_yids`. -/
def outputNets : List YosysNetID :=
  (view.module.ports.toList.filter fun p => p.2.direction = "output").flatMap
    fun p => intBits p.2.bits

/-- The stem of a net with one observer stands for the branch of that observer. -/
def exactStem (net : YosysNetID) : Bool := net ∉ view.fanoutNets && net ∉ view.outputNets

/-- `_wbr_observe_sites`, of the instance of a wrapper cell. -/
def wbrObserveSite (inst : String) : Option CompiledNetIndex := do
  let cell ← view.module.cells["$wbobserve_" ++ inst]?
  let net ← maybeOneBit (cell.pin "A")
  match view.byKey[branchSiteKey net ("$wbobserve_" ++ inst) "A"]? with
  | some site => some site
  | none => if view.exactStem net then view.stems[net]? else none

end ReducedView

/-- What the resolution of a campaign works with. -/
structure Resolution where
  generic : Module
  view : ReducedView
  pseudoPorts : TreeMap String BoundaryEntry
  ports : ScanPorts
  wbrRecords : List WbrRecord
  wbrDecoupledBits : List YosysNetID := []

namespace Resolution

variable (r : Resolution)

/-- The exclusion of a site. -/
def exclusionOf (row : SiteRow) : Option MapTag :=
  if row.yosysNetId ∈ r.wbrDecoupledBits then some .wbrDecoupled
  else if row.yosysNetId ∈ portNets r.generic r.ports.scanInputs then some .scanChain
  else if row.yosysNetId ∈ portNets r.generic [r.ports.scanEnable] then some .scanInternal
  else if row.yosysNetId ∈ extractWbrChainBits r.generic then some .scanChain
  else match row.consumer with
    | some (inst, "SDI") => if r.pseudoPorts.contains inst then some .scanInternal else none
    | _ => none

/-- The flip-flop whose output a net is; a later entry replaces an earlier one. -/
def qBoundary (net : YosysNetID) : Option BoundaryEntry :=
  (r.pseudoPorts.toList.filter fun p => p.2.qStemNetId = net).getLast?.map Prod.snd

/-- The net of the view at which the capture of a flip-flop reads a branch. -/
def captureNet (key : String) : Option YosysNetID :=
  let last (f : BoundaryEntry → Option YosysNetID) :=
    (r.pseudoPorts.toList.filterMap fun p => f p.2).getLast?
  (last fun e => if e.dBoundarySiteKey = key then some e.dObserveNetId else none).or
    (last fun e => e.controlBoundary.bind fun c => if c.1 = key then some c.2 else none)

/-- The instance of a branch, without the suffix of the mux half of a wrapper cell. -/
def wbrInstanceOf (inst : String) : String :=
  if "$wbrmux".toList.isSuffixOf inst.toList then
    String.ofList (inst.toList.take (inst.toList.length - "$wbrmux".toList.length))
  else inst

/-- Where a stem or a branch on the output of a flip-flop is graded. -/
def qSite (entry : BoundaryEntry) (row : SiteRow) : Option CompiledNetIndex :=
  match row.consumer with
  | none => r.view.stems[entry.ppiNetId]?
  | some (inst, pin) =>
    match r.view.byKey[branchSiteKey entry.qDriveNetId inst pin]? with
    | some site => some site
    | none => if r.view.exactStem entry.qDriveNetId then r.view.stems[entry.qDriveNetId]? else none

/-- Where a site that is no capture and has no key in the view is graded. -/
def boundarySite (row : SiteRow) : Option CompiledNetIndex :=
  let coreNets := r.wbrRecords.map WbrRecord.coreNet
  let onCore := row.yosysNetId ∈ coreNets
  let wrapper := row.consumer.bind fun c =>
    if onCore ∧ wbrInstanceOf c.1 ∈ r.wbrRecords.map WbrRecord.instanceName then
      some (wbrInstanceOf c.1) else none
  match wrapper with
  | some inst => (r.view.wbrObserveSite inst).or r.view.stems[row.yosysNetId]?
  | none =>
    match (if onCore then r.view.stems[row.yosysNetId]? else none) with
    | some site => some site
    | none => (r.qBoundary row.yosysNetId).bind fun entry => r.qSite entry row

/-- Where a site that is not excluded is graded. -/
def executionOf (row : SiteRow) : Option CompiledNetIndex :=
  match r.view.byKey[row.siteKey]? with
  | some site => some site
  | none =>
    match (if row.consumer.isSome then r.captureNet row.siteKey else none) with
    | some net => r.view.stems[net]?
    | none => r.boundarySite row

/-- `build_scan_execution_map`, of the rows of the generic netlist. -/
def buildScanExecutionMap (rows : List SiteRow) :
    TreeMap String CompiledNetIndex × TreeMap String MapTag :=
  rows.foldl (fun maps row =>
    match r.exclusionOf row with
    | some tag => (maps.1, maps.2.insert row.siteKey tag)
    | none =>
      match r.executionOf row with
      | some site => (maps.1.insert row.siteKey site, maps.2)
      | none => maps) (∅, ∅)

end Resolution

end Scan

end FaultFlow
