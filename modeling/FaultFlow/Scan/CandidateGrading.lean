/-
# Grading a scan candidate

`_process_scan_candidate` of `faultflow/scan/detection_pipeline.py`, up to what it writes.  A
candidate is a vector of the reduced view.  Resets that are held are put into it, the inputs it
does not name are `0`, and the vector that results is applied: the view gives the expected
outputs, the stitched netlist must show them under the scan protocol, and the faults are graded.

For a transition test the vector is the launch frame `V1`, and the capture frame `V2` is derived
from it.

The extension is a parameter (`PipelineCore`).  Left out are the rows of candidates and of their
rejections, which are only written.
-/

import FaultFlow.Runner.IncrementalGrading
import FaultFlow.Scan.AtpgView
import FaultFlow.Scan.PatternSim
import FaultFlow.Sim.TransitionBatch

namespace FaultFlow.Scan

open Std (TreeMap)
open Runner (PiMap patternKey)

/-- Where the two netlists disagree on a pattern. -/
inductive GoldenMismatch where
  | functionalOutput (port : String)
  | unload (chain : ℤ)
  | simulator (e : FlowError)
deriving DecidableEq

/-- The errors that end a scan campaign. -/
inductive PipelineError where
  | transitionOnScanWbr
  | noPredecessor (chain position : ℤ)
  | clockNotAPort (net : YosysNetID)
  | noCapture (inst : String)
  | maxRoundsBelowOne
  | targetOutOfRange
  | faultNotFound (id : ℕ)
  | faultNotActive
  | core (e : FlowError)
  | value (e : ValueError)
  | goldenSequenceFailed (mismatch : GoldenMismatch)
  | genericIndexMissing (siteKey : String)
  | workerDied
  | denominatorZero
deriving DecidableEq

/-- **The compiled extension**, as the scan pipeline sees it: the simulators of the reduced view
and of the stitched netlist. -/
structure PipelineCore where
  /-- `fault_free_outputs`, of the view. -/
  faultFreeOutputs : PiMap → (outputOrder : List String) → Except FlowError PiMap
  /-- `simulate_scan_pattern`, of the stitched netlist. -/
  simulateScanPattern : ScanPatternRequest → Except FlowError ScanPatternResult
  /-- `simulate_scan_protocol_faults`, of the stitched netlist. -/
  simulateScanProtocolFaults : ScanProtocolFaultRequest → Except FlowError ScanProtocolFaultSimResult
  /-- `verify_fault_candidate`. -/
  verifyFault : CompactFault → PiMap → Except FlowError Bool
  /-- `verify_transition_candidate`. -/
  verifyTransition : CompactFault → (launch capture : PiMap) → Except FlowError Bool
  /-- `simulate_tentative_preloaded`: the faults that are detected. -/
  tentative : List (ℕ × CompactFault) → PiMap → Except FlowError (List ℕ)
  /-- `simulate_transition_tentative_preloaded`. -/
  tentativeTransition : List (ℕ × CompactFault) → (launch capture : PiMap) →
    Except FlowError (List ℕ)

/-- The names of a vector as nets. -/
def namedVector (parsed : ParsedModule) (values : PiMap) : Except FlowError TestVector := do
  let inputs ← values.toList.foldlM (fun (inputs : TreeMap YosysNetID Bool) p => do
    return inputs.insert (← parsed.netIdByName p.1) p.2) ∅
  return { inputs := inputs }

/-- `convert_vectors_strict`, of one vector. -/
def convertVectorStrict (parsed : ParsedModule) (values : PiMap) (inputOrder : List String) :
    Except FlowError TestVector := do
  let inputs ← inputOrder.foldlM (fun (inputs : TreeMap YosysNetID Bool) input => do
    match values[input]? with
    | some value => return inputs.insert (← parsed.netIdByName input) value
    | none => throw (.runtimeError ("vector 1: missing PI " ++ input))) ∅
  return { inputs := inputs }

/-- `fault_free_outputs`, of one vector. -/
def faultFreeOutputs (g : CachedGraph) (inputOrder : List String) (values : PiMap)
    (outputOrder : List String) : Except FlowError PiMap := do
  let vec ← convertVectorStrict g.parsed values inputOrder
  outputOrder.foldlM (fun (sample : PiMap) output => do
    match Golden.simulateFaultFree g.cg vec (← g.parsed.netIdByName output) with
    | some value => return sample.insert output value
    | none => throw (.runtimeError ("output not simulated: " ++ output))) ∅

/-- The preloaded faults that a grade of batches detects. -/
def detectedPreloaded (grade : FaultBatch → Lib.Word) (rows : List (ℕ × CompactFault)) (hardware : ℕ)
    (simThreads : ℤ) : List ℕ :=
  let active := rows.map fun row => (row.1, { netIndex := row.2.netIndex, type := row.2.type })
  (Grading.gradeActiveParallel grade active hardware simThreads).flatMap fun slice =>
    slice.detectedIndices.filterMap fun idx => (active[idx]?).map Prod.fst

/-- The simulators on a view and a stitched netlist. -/
def pipelineCore (view generic : CachedGraph) (inputOrder : List String) (hardware : ℕ)
    (simThreads : ℤ) : PipelineCore where
  faultFreeOutputs := Scan.faultFreeOutputs view inputOrder
  simulateScanPattern := Scan.simulateScanPattern generic
  simulateScanProtocolFaults request :=
    Scan.simulateScanProtocolFaults generic request hardware simThreads
  verifyFault f v := do
    return Golden.isDetected view.cg
      (Golden.simulateFaultFree view.cg (← namedVector view.parsed v))
      (Golden.simulateWithFault view.cg (← namedVector view.parsed v) f)
  verifyTransition f v1 v2 := do
    return Golden.simulateTransitionFault view.cg (← namedVector view.parsed v1)
      (← namedVector view.parsed v2) f
  tentative rows v := do
    let vec ← Grading.vectorFromMap view.parsed v inputOrder
    return detectedPreloaded (BitParallel.simulateBatch view.cg vec) rows hardware simThreads
  tentativeTransition rows v1 v2 := do
    let vec1 ← Grading.vectorFromMap view.parsed v1 inputOrder
    let vec2 ← Grading.vectorFromMap view.parsed v2 inputOrder
    return detectedPreloaded (BitParallel.simulateTransitionBatch view.cg vec1 vec2) rows hardware
      simThreads

/-- `ScanPipelineContext`, with what else a campaign does not change. -/
structure PipelineContext where
  inputOrder : List String
  launch : Launch := .none
  includeResetFaults : Bool := false
  manifest : Manifest
  scanInputs : List String
  scanOutputs : List String
  scanEnable : String
  /-- By instance. -/
  pseudoPorts : List PseudoPort
  functionalOutputOrder : List String
  /-- The column `fault_site_key`. -/
  siteKeys : TreeMap ℕ String := ∅
  qStemSiteKeys : List String := []
  qStemToPpo : TreeMap String String := ∅
  wbrStimulusNameByPort : TreeMap String String := ∅
  wbrObserveNameByPort : TreeMap String String := ∅
  resetPiHolds : PiMap := ∅
  clockPorts : List String := []
  genericSiteIndex : TreeMap String CompiledNetIndex := ∅

variable (core : PipelineCore) (ctx : PipelineContext) (request : ScanPatternRequest)
  (rows : List (ℕ × CompactFault))

/-- `transition`. -/
def PipelineContext.transition : Bool := ctx.launch ≠ .none

/-! ## Holding resets -/

/-- The inputs of one net, by net. -/
def inputByNet (m : Module) (net : YosysNetID) : Option String :=
  ((m.ports.toList.filter fun p => p.2.direction = "input" ∧ p.2.bits = [.net net]).getLast?).map
    Prod.fst

/-- The hold of a control of a scan cell: its input, at the level that does not act. -/
def controlHold (m : Module) (cell : Cell) : Option ControlMeta → Option (String × Bool)
  | some (.obj spec) => do
    let net ← maybeOneBit (cell.pin (← spec.pin))
    let pi ← inputByNet m net
    return (pi, spec.level = some "LOW")
  | _ => none

/-- `_scan_reset_pi_holds`. -/
def scanResetPiHolds (m : Module) (map : RawCellMap) : PiMap :=
  let unescaped (type : String) := String.ofList (type.toList.dropWhile (· == '\\'))
  let holds := m.cells.toList.flatMap fun p =>
    if p.2.type ∈ scanCellTypes then
      match ((map[p.2.type]?).or map[unescaped p.2.type]?).bind CellEntry.ff with
      | some ff => [controlHold m p.2 ff.clear, controlHold m p.2 ff.preset].filterMap id
      | none => []
    else []
  holds.foldl (fun m p => m.insert p.1 p.2) ∅

namespace PipelineContext

/-- Resets are held unless their faults are graded. -/
def holds : PiMap := if ctx.includeResetFaults then ∅ else ctx.resetPiHolds

/-- The vector with the inputs that are held; one that the vector does not name is left out. -/
def held (vector : PiMap) : PiMap :=
  (ctx.holds.toList.filter fun p => vector.contains p.1).foldl (fun v p => v.insert p.1 p.2) vector

/-- **The vector that is applied**: every input of the view, a missing one at `0`. -/
def applied (vector : PiMap) : PiMap :=
  ctx.inputOrder.foldl (fun v pi => v.insert pi ((ctx.held vector).getD pi false)) ∅

end PipelineContext

/-! ## The two frames -/

/-- `dict.setdefault(name, False)` for each input. -/
def fillInputs (inputOrder : List String) (vector : PiMap) : PiMap :=
  inputOrder.foldl (fun v name => if v.contains name then v else v.insert name false) vector

/-- The outputs of the flip-flops. -/
def ppoOrder (ports : List PseudoPort) : List String := ports.filterMap PseudoPort.ppoPort

/-- `_materialize_reduced_outputs`: the inputs, and what the view shows for them. -/
def materializeReducedOutputs (vector : PiMap) : Except PipelineError PiMap := do
  let filled := fillInputs ctx.inputOrder vector
  let sample ← (core.faultFreeOutputs filled
    (ctx.functionalOutputOrder ++ ppoOrder ctx.pseudoPorts)).mapError .core
  return sample.toList.foldl (fun m p => m.insert p.1 p.2) filled

/-- The inputs that are no state of a flip-flop. -/
def realInputs (vector : PiMap) : PiMap :=
  vector.filter fun name _ =>
    !ppiPrefix.toList.isPrefixOf name.toList && !ppoPrefix.toList.isPrefixOf name.toList

/-- `_derive_loc_capture`: a flip-flop has captured, or holds its value outside the domain. -/
def deriveLocCapture (materializedLaunch launch : PiMap) (ports : List PseudoPort) : PiMap :=
  ports.foldl (fun capture entry =>
    capture.insert entry.ppiPort (match entry.ppoPort with
      | some ppo => materializedLaunch.getD ppo false
      | none => launch.getD entry.ppiPort false)) (realInputs launch)

/-- `by_pos[(chain, position)]`. -/
def portAt (ports : List PseudoPort) (chain position : ℤ) : Option PseudoPort :=
  (ports.filter fun e => e.chainId = chain ∧ e.positionInChain = position).getLast?

/-- The flip-flop in front of another one. -/
def predecessor (ports : List PseudoPort) (entry : PseudoPort) : Except PipelineError PseudoPort :=
  match portAt ports entry.chainId (entry.positionInChain - 1) with
  | some pred => .ok pred
  | none => .error (.noPredecessor entry.chainId (entry.positionInChain - 1))

/-- `_derive_los_capture`: one more shift. -/
def deriveLosCapture (launch : PiMap) (heads : TreeMap ℤ Bool) (ports : List PseudoPort) :
    Except PipelineError PiMap :=
  ports.foldlM (fun capture entry =>
    if entry.positionInChain = 0 then
      .ok (capture.insert entry.ppiPort (heads.getD entry.chainId false))
    else do
      let pred ← predecessor ports entry
      return capture.insert entry.ppiPort (launch.getD pred.ppiPort false)) (realInputs launch)

/-- The frames of a candidate. -/
structure Frames where
  capture : PiMap := ∅
  /-- `reduced_expectation`. -/
  expectation : PiMap
  /-- `serialize_input`. -/
  serialized : PiMap
  /-- `vector_pattern`. -/
  pattern : String
  launchPattern : String := ""

/-- The capture frame of a launch frame. -/
def captureFrame (launch : PiMap) (heads : TreeMap ℤ Bool) : Except PipelineError PiMap :=
  if ctx.launch = .los then deriveLosCapture launch heads ctx.pseudoPorts
  else do
    let materialized ← materializeReducedOutputs core ctx launch
    return deriveLocCapture materialized launch ctx.pseudoPorts

/-- What a vector is expected to show, and the patterns it is stored under. -/
def framesOf (vector : PiMap) (heads : TreeMap ℤ Bool) : Except PipelineError Frames := do
  let materialized ← materializeReducedOutputs core ctx vector
  if ctx.transition then
    let capture ← captureFrame core ctx vector heads
    let expectation ← materializeReducedOutputs core ctx capture
    return {
      capture := capture
      expectation := expectation
      serialized := (ppoOrder ctx.pseudoPorts).foldl
        (fun m ppo => m.insert ppo (expectation.getD ppo false)) vector
      pattern := patternKey capture ctx.inputOrder
      launchPattern := patternKey vector ctx.inputOrder }
  else
    return {
      expectation := materialized
      serialized := materialized
      pattern := patternKey vector ctx.inputOrder }

/-- The scan pattern of a candidate. -/
def scanPatternOf (frames : Frames) (heads : TreeMap ℤ Bool) :
    Except PipelineError ScanPattern := do
  let pattern ← (serializeVector frames.serialized ctx.pseudoPorts ctx.manifest).mapError .value
  return { pattern with
    launch := ctx.launch
    launchScanIn := if ctx.launch = .los then
        (List.range ctx.scanInputs.length).foldl
          (fun (m : TreeMap ℤ Bool) (chain : ℕ) => m.insert chain (heads.getD chain false)) ∅
      else ∅ }

/-! ## The golden gate -/

/-- The values under the names of the stitched netlist. -/
def renameValues (names : TreeMap String String) (values : PiMap) : PiMap :=
  if names.isEmpty then values
  else values.toList.foldl (fun m p => m.insert (names.getD p.1 p.1) p.2) ∅

/-- `_protocol_fault_sim_kwargs`, and the arguments of the gate. -/
def protocolRequest (pattern : ScanPattern) (heads : TreeMap ℤ Bool) : ScanPatternRequest :=
  { clockPorts := ctx.clockPorts
    scanEnablePort := ctx.scanEnable
    scanInputPorts := ctx.scanInputs
    scanOutputPorts := ctx.scanOutputs
    functionalOutputPorts := ctx.functionalOutputOrder.map fun port =>
      ctx.wbrObserveNameByPort.getD port port
    maxChainLength := ctx.manifest.maxChainLength.getD 0
    loadSeqs := pattern.loadSeqs
    capturePiValues := renameValues
      (ctx.wbrObserveNameByPort.toList.foldl (fun m p => m.insert p.1 p.2)
        ctx.wbrStimulusNameByPort) pattern.capturePiValues
    locTwoCapture := ctx.launch = .loc
    losTwoCapture := ctx.launch = .los
    losLaunchScanIn := heads }

/-- The checks of `verify_golden_scan_protocol`: the functional outputs, then the chains. -/
def goldenMismatch (pattern : ScanPattern) (reduced : PiMap) (result : ScanPatternResult) :
    Option GoldenMismatch :=
  match request.functionalOutputPorts.find? fun port =>
      reduced.getD port false ≠ result.realPoValues.getD port false with
  | some port => some (.functionalOutput port)
  | none =>
    (pattern.expectedUnload.toList.find? fun p => result.unloadSeqs.getD p.1 [] ≠ p.2).map
      fun p => .unload p.1

/-- `reduced_protocol_matches`.  The gate is skipped where wrapper outputs are observed. -/
def goldenGate (pattern : ScanPattern) (expectation : PiMap) : Except PipelineError Unit :=
  if ctx.wbrObserveNameByPort.isEmpty then
    match core.simulateScanPattern request with
    | .error e => .error (.goldenSequenceFailed (.simulator e))
    | .ok result =>
      match goldenMismatch request pattern expectation result with
      | some mismatch => .error (.goldenSequenceFailed mismatch)
      | none => .ok ()
  else .ok ()

/-! ## The faults -/

/-- A candidate: the vector, the fault it was solved for, the rows it is graded on, and for
launch-on-shift the bits at the heads of the chains. -/
structure Candidate where
  vector : PiMap
  target : Option (ℕ × CompactFault) := none
  activeRows : List (ℕ × CompactFault)
  heads : TreeMap ℤ Bool := ∅

/-- What a candidate passed for, and the faults it is blocked for. -/
structure Graded where
  frames : Frames
  scanPattern : ScanPattern
  passed : List ℕ := []
  blocked : List ℕ := []

/-- `sorted(set(ids))`. -/
def sortedIds (ids : List ℕ) : List ℕ := ids.dedup.insertionSort (· ≤ ·)

/-- `fault_type_to_sa_code`. -/
def saCode (f : CompactFault) : ℕ := if f.type = .SA0 then 0 else 1

/-- The site key of a fault. -/
def PipelineContext.siteKey (id : ℕ) : String := ctx.siteKeys.getD id ""

/-- `_active_q_stem_fault_ids`. -/
def PipelineContext.qStemIds : List ℕ :=
  (rows.map Prod.fst).filter fun id => ctx.siteKey id ∈ ctx.qStemSiteKeys

/-- The fault of the stitched netlist that a row stands for. -/
def genericSpec (row : ℕ × CompactFault) : Except PipelineError ScanProtocolFaultSpec :=
  match ctx.genericSiteIndex[ctx.siteKey row.1]? with
  | some index => .ok { compiledNetIndex := index, faultType := saCode row.2 }
  | none => .error (.genericIndexMissing (ctx.siteKey row.1))

/-- A stuck output of a flip-flop shows in its own unloaded bit if the value captured differs. -/
def captureCredit (expectation : PiMap) (row : ℕ × CompactFault) : Option Bool :=
  ctx.qStemToPpo[ctx.siteKey row.1]?.map fun ppo =>
    let captured := expectation.getD ppo false
    if saCode row.2 = 0 then captured else !captured

/-- The outcomes of some faults under the scan protocol, in order. -/
def protocolOutcomes : Except PipelineError (List (ℕ × Bool)) := do
  let specs ← rows.mapM (genericSpec ctx)
  let result ← (core.simulateScanProtocolFaults { pattern := request, faults := specs }).mapError
    .core
  return (rows.map Prod.fst).zip (result.allLanes.map fun lane => lane.outcome = .PASS)

/-- The rows of some ids. -/
def rowsOf (ids : List ℕ) : List (ℕ × CompactFault) :=
  ids.filterMap fun id => rows.find? fun row => row.1 = id

/-- The faults that a stuck-at candidate passes for: those the view detects, and outputs of
flip-flops by the value captured, the target by the protocol if need be. -/
def gradeStuckAt (c : Candidate) (request : ScanPatternRequest) (expectation : PiMap)
    (tentative : List ℕ) : Except PipelineError (List ℕ × List ℕ) := do
  let trusted := sortedIds tentative
  let residual := rowsOf c.activeRows
    (sortedIds ((ctx.qStemIds c.activeRows).filter fun id => id ∉ tentative))
  let credited := residual.filter fun row => captureCredit ctx expectation row = some true
  let fallback := residual.filter fun row =>
    captureCredit ctx expectation row = some false ∧ c.target.map Prod.fst = some row.1
  if fallback.isEmpty then return (trusted ++ credited.map Prod.fst, [])
  let outcomes ← protocolOutcomes core ctx request fallback
  let passes (row : ℕ × CompactFault) := outcomes.any fun p => p = (row.1, true)
  return (trusted ++ credited.map Prod.fst ++ (fallback.filter passes).map Prod.fst,
    (fallback.filter fun row => !passes row).map Prod.fst)

/-- The faults that a transition candidate passes for: those the two frames detect, and outputs
of flip-flops by the protocol. -/
def gradeTransition (c : Candidate) (request : ScanPatternRequest) (tentative : List ℕ) :
    Except PipelineError (List ℕ × List ℕ) := do
  let qStems := ctx.qStemIds c.activeRows
  let trusted := sortedIds (tentative.filter fun id => id ∉ qStems)
  let residual := rowsOf c.activeRows (sortedIds qStems)
  if residual.isEmpty then return (trusted, [])
  let outcomes ← protocolOutcomes core ctx request residual
  return (trusted ++ (outcomes.filter Prod.snd).map Prod.fst,
    (outcomes.filter fun p => !p.2).map Prod.fst)

/-- `verify_fault_candidate` or `verify_transition_candidate`, for the target if there is one. -/
def verifyTarget (c : Candidate) (vector : PiMap) (frames : Frames) : Except PipelineError Bool :=
  match c.target with
  | none => .ok true
  | some target =>
    (if ctx.transition then core.verifyTransition target.2 vector frames.capture
      else core.verifyFault target.2 vector).mapError .core

/-- The faults that a candidate passes for, and those it is blocked for. -/
def gradeRows (c : Candidate) (vector : PiMap) (frames : Frames) (request : ScanPatternRequest) :
    Except PipelineError (List ℕ × List ℕ) :=
  if ctx.transition then do
    let tentative ← (core.tentativeTransition c.activeRows vector frames.capture).mapError .core
    gradeTransition core ctx c request tentative
  else do
    let tentative ← (core.tentative c.activeRows vector).mapError .core
    gradeStuckAt core ctx c request frames.expectation tentative

/-- **The grade of a candidate under a vector**, which the caller derives from the candidate's
own.  Nothing is passed where the target is not verified. -/
def gradeUnder (c : Candidate) (vector : PiMap) : Except PipelineError Graded := do
  let frames ← framesOf core ctx vector c.heads
  let scanPattern ← scanPatternOf ctx frames c.heads
  let request := protocolRequest ctx scanPattern c.heads
  goldenGate core ctx request scanPattern frames.expectation
  let verified ← verifyTarget core ctx c vector frames
  if !verified then return { frames := frames, scanPattern := scanPattern }
  let outcome ← gradeRows core ctx c vector frames request
  return { frames := frames, scanPattern := scanPattern, passed := outcome.1, blocked := outcome.2 }

/-- The grade of a candidate: that under the vector applied for it. -/
def gradeCandidate (c : Candidate) : Except PipelineError Graded :=
  gradeUnder core ctx c (ctx.applied c.vector)

end FaultFlow.Scan
