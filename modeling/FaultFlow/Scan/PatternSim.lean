/-
# The scan protocol simulated cycle by cycle

`src/core/scan/scan_pattern_sim.cpp`.  A pattern becomes a clocked vector: shift cycles that load
the chains, a launch for a transition pattern, the capture, and shift cycles that unload.  A pulse
is two cycles, with the clocks at their off levels and then at the other level.  The golden
simulator gives the expected observations, and the faults are simulated 63 at a time; a fault
passes when what is observed in its lane differs.  Batches are shared among threads, each of which
writes the slots of its own batches.

What a fault's lane shows does not depend on the other faults of its batch (`Sim.LaneLocality`),
so the outcomes are those of the faults requested one by one, in order
(`simulateScanProtocolFaults_alone`).

A port list that the source indexes by an `int` chain number is indexed by a natural number here,
and a batch count that it rounds up in floating point is rounded up exactly.
-/

import FaultFlow.IR.CellLibraries
import FaultFlow.IR.NetNames
import FaultFlow.Lib.Tiling
import FaultFlow.Sim.LaneLocality

namespace FaultFlow

open Std (TreeMap)
open Lib

namespace Golden

/-- `simulate_sequence_fault_free` with `sample_yids`: only those nets are kept. -/
def simulateSequenceSampled (cg : CompiledSimGraph) (vec : TestVector)
    (sampleYids : List YosysNetID) : List Snapshot :=
  (simulateSequenceFaultFree cg vec).map fun snap yid => if yid ∈ sampleYids then snap yid else none

end Golden

namespace Scan

/-- `ScanPatternRequest`. -/
structure ScanPatternRequest where
  clockPorts : List String := []
  clockOffStates : List Bool := []
  scanEnablePort : String
  scanInputPorts : List String := []
  scanOutputPorts : List String := []
  functionalOutputPorts : List String := []
  maxChainLength : ℤ := 0
  loadSeqs : TreeMap ℤ (List Bool) := ∅
  capturePiValues : TreeMap String Bool := ∅
  locTwoCapture : Bool := false
  losTwoCapture : Bool := false
  losLaunchScanIn : TreeMap ℤ Bool := ∅
  activeClockPorts : List String := []
  testMode : TestMode := .FUNCTIONAL

/-- `ScanPatternResult`. -/
structure ScanPatternResult where
  realPoValues : TreeMap String Bool := ∅
  unloadSeqs : TreeMap ℤ (List Bool) := ∅

/-- `scan_observations_equal`. -/
def scanObservationsEqual (lhs rhs : ScanPatternResult) : Bool :=
  lhs.realPoValues.toList == rhs.realPoValues.toList &&
    lhs.unloadSeqs.toList == rhs.unloadSeqs.toList

/-! ## The vector of a pattern -/

namespace ScanPatternRequest

variable (req : ScanPatternRequest)

/-- `clock_off`. -/
def clockOff (i : ℕ) : Bool := req.clockOffStates.getD i false

/-- `is_active`. -/
def isActive (i : ℕ) : Bool :=
  req.activeClockPorts.isEmpty ||
    match req.clockPorts[i]? with
    | some name => req.activeClockPorts.contains name
    | none => false

/-- The level of clock `i` in the second cycle of a launch or a capture. -/
def captureLevel (i : ℕ) : Bool := if req.isActive i then !req.clockOff i else req.clockOff i

/-- A pattern with a launch. -/
def twoCapture : Bool := req.locTwoCapture || req.losTwoCapture

/-- The chains, as far as the loops count them. -/
def shiftCount : ℕ := req.maxChainLength.toNat

/-- Set every clock. -/
def setClocks (level : ℕ → Bool) (values : TreeMap String Bool) : TreeMap String Bool :=
  req.clockPorts.zipIdx.foldl (fun values p => values.insert p.1 (level p.2)) values

/-- Set every scan input. -/
def setScanInputs (bit : ℕ → Bool) (values : TreeMap String Bool) : TreeMap String Bool :=
  req.scanInputPorts.zipIdx.foldl (fun values p => values.insert p.1 (bit p.2)) values

/-- `base_values`. -/
def baseValues : TreeMap String Bool :=
  req.setScanInputs (fun _ => false)
    (req.setClocks req.clockOff (req.capturePiValues.insert req.scanEnablePort false))

variable (parsed : ParsedModule) (values : TreeMap String Bool)

/-- `make_cycle`. -/
def makeCycle (sampleOutputs faultActive : Bool) : Except FlowError TestCycle := do
  let inputs ← values.toList.foldlM (fun (inputs : TreeMap YosysNetID Bool) p => do
    let net ← parsed.netIdByName p.1
    return inputs.insert net p.2) ∅
  let unset := req.clockPorts.zipIdx.filter fun p => !values.contains p.1
  let inputs ← unset.foldlM (fun (inputs : TreeMap YosysNetID Bool) p => do
    let net ← parsed.netIdByName p.1
    return inputs.insert net (req.clockOff p.2)) inputs
  return { inputs := inputs, sampleOutputs := sampleOutputs, faultActive := faultActive }

/-- A pulse: the clocks at their off levels, and then at `level`. -/
def pulse (level : ℕ → Bool) (sampleOff sampleOn faultActive : Bool) :
    Except FlowError (List TestCycle) := do
  let off ← req.makeCycle parsed (req.setClocks req.clockOff values) sampleOff faultActive
  let on ← req.makeCycle parsed (req.setClocks level values) sampleOn faultActive
  return [off, on]

/-- `append_clock_pulse`. -/
def clockPulse (sample faultActive : Bool) : Except FlowError (List TestCycle) :=
  req.pulse parsed values (fun i => !req.clockOff i) false sample faultActive

/-- `append_launch_pulse`. -/
def launchPulse : Except FlowError (List TestCycle) :=
  req.pulse parsed values req.captureLevel true false false

/-- `append_launch_shift`: one more shift, with the launch bit of every chain. -/
def launchShift : Except FlowError (List TestCycle) :=
  req.pulse parsed
    (req.setScanInputs (fun chain => req.losLaunchScanIn.getD chain false)
      (values.insert req.scanEnablePort true)) req.captureLevel true false false

/-- `append_capture_pulse`. -/
def capturePulse : Except FlowError (List TestCycle) :=
  req.pulse parsed values req.captureLevel true false true

/-- `append_unload_pulse`. -/
def unloadPulse (faultActive : Bool) : Except FlowError (List TestCycle) :=
  req.pulse parsed values (fun i => !req.clockOff i) true false faultActive

/-- The cycles that shift bit `offset` of every load sequence in. -/
def loadCycles (offset : ℕ) : Except FlowError (List TestCycle) :=
  req.clockPulse parsed
    (req.setScanInputs (fun chain => (req.loadSeqs.getD chain []).getD offset false)
      (req.baseValues.insert req.scanEnablePort true)) false false

/-- The launch, if there is one. -/
def launchCycles : Except FlowError (List TestCycle) :=
  if req.locTwoCapture && req.losTwoCapture then
    .error (.runtimeError "loc_two_capture and los_two_capture are mutually exclusive")
  else if req.locTwoCapture then req.launchPulse parsed req.baseValues
  else if req.losTwoCapture then req.launchShift parsed req.baseValues
  else .ok []

/-- The cycles that shift one bit of every chain out.  The faults of a transition pattern act
between launch and capture only. -/
def unloadCycles : Except FlowError (List TestCycle) :=
  req.unloadPulse parsed (req.baseValues.insert req.scanEnablePort true) !req.twoCapture

/-- `build_scan_pattern_vector`. -/
def buildVector : Except FlowError TestVector :=
  if req.maxChainLength < 0 then .error (.runtimeError "max_chain_length must be >= 0")
  else if req.scanInputPorts.length ≠ req.scanOutputPorts.length then
    .error (.runtimeError "scan input/output port count mismatch")
  else do
    let load ← (List.range req.shiftCount).mapM (req.loadCycles parsed)
    let launch ← req.launchCycles parsed
    let capture ← req.capturePulse parsed req.baseValues
    let unload ← (List.range req.shiftCount).mapM fun _ => req.unloadCycles parsed
    return {
      cycles := load.flatten ++ launch ++ capture ++ unload.flatten
      testMode := req.testMode }

/-! ## What a pattern shows -/

/-- The sample with the functional outputs. -/
def functionalIdx : ℕ := if req.twoCapture then 1 else 0

/-- The observations, from a reader of the ports in the samples: `extract_scan_observations` past
its first check, and `extract_scan_lane_observations`. -/
def extractObservations (sampleCount : ℕ) (bit : ℕ → String → Except FlowError Bool) :
    Except FlowError ScanPatternResult :=
  if (sampleCount : ℤ) ≠ req.maxChainLength + (req.functionalIdx + 1) then
    .error (.runtimeError "scan pattern sample count mismatch")
  else do
    let realPoValues ← req.functionalOutputPorts.foldlM (fun (m : TreeMap String Bool) port => do
      let b ← bit req.functionalIdx port
      return m.insert port b) ∅
    let unloadSeqs ← req.scanOutputPorts.zipIdx.foldlM
      (fun (m : TreeMap ℤ (List Bool)) (p : String × ℕ) => do
        let bits ← (List.range req.shiftCount).mapM fun offset =>
          bit (req.functionalIdx + 1 + offset) p.1
        return m.insert p.2 bits) ∅
    return { realPoValues := realPoValues, unloadSeqs := unloadSeqs }

end ScanPatternRequest

/-- The error of `sample_bit` and `sample_word`. -/
def missingPort (port : String) : FlowError :=
  .runtimeError ("scan pattern sample missing port: " ++ port)

variable (parsed : ParsedModule) (g : CachedGraph) (req : ScanPatternRequest)

/-- `sample_bit`. -/
def sampleBit (sample : Snapshot) (port : String) : Except FlowError Bool := do
  match sample (← parsed.netIdByName port) with
  | some b => return b
  | none => throw (missingPort port)

/-- `extract_scan_observations`. -/
def extractScanObservations (samples : List Snapshot) : Except FlowError ScanPatternResult :=
  if samples = [] then .error (.runtimeError "scan pattern produced no samples")
  else req.extractObservations samples.length fun i =>
    sampleBit parsed (samples.getD i fun _ => none)

/-- `sample_word`. -/
def sampleWord (sample : Words) (port : String) : Except FlowError Word := do
  match g.cg.yosysToCompiled[← g.parsed.netIdByName port]? with
  | some net => return sample net
  | none => throw (missingPort port)

/-- `extract_scan_lane_observations`. -/
def extractScanLaneObservations (samples : List Words) (bit : ℕ) :
    Except FlowError ScanPatternResult :=
  req.extractObservations samples.length fun i port => do
    let word ← sampleWord g (samples.getD i fun _ => 0#64) port
    return lane bit word

/-- `scan_sample_yids`. -/
def scanSampleYids : Except FlowError (List YosysNetID) :=
  (req.functionalOutputPorts ++ req.scanOutputPorts).mapM parsed.netIdByName

/-- The vector of a pattern, and what the golden simulator shows. -/
def goldenObservations : Except FlowError (TestVector × ScanPatternResult) := do
  let vec ← req.buildVector g.parsed
  let yids ← scanSampleYids g.parsed req
  let golden ← extractScanObservations g.parsed req (Golden.simulateSequenceSampled g.cg vec yids)
  return (vec, golden)

/-- `simulate_scan_pattern`. -/
def simulateScanPattern : Except FlowError ScanPatternResult := do
  return (← goldenObservations g req).2

/-! ## Faults -/

/-- `kScanProtocolFaultBatchSize`. -/
def scanProtocolFaultBatchSize : ℕ := 63

/-- `ScanProtocolFaultOutcome`. -/
inductive ScanProtocolFaultOutcome where
  | PASS | NO_CAPTURE_OR_UNLOAD_EFFECT
deriving DecidableEq, Repr

/-- `ScanProtocolFaultSpec`. -/
structure ScanProtocolFaultSpec where
  compiledNetIndex : CompiledNetIndex
  faultType : ℕ := 0
deriving DecidableEq, Repr

/-- `ScanProtocolFaultRequest`. -/
structure ScanProtocolFaultRequest where
  pattern : ScanPatternRequest
  faults : List ScanProtocolFaultSpec

/-- `ScanProtocolFaultLaneResult`. -/
structure ScanProtocolFaultLaneResult where
  faultIndex : ℕ
  outcome : ScanProtocolFaultOutcome
deriving DecidableEq, Repr

/-- `ScanProtocolFaultBatchResult`. -/
structure ScanProtocolFaultBatchResult where
  batchIndex : ℕ
  lanes : List ScanProtocolFaultLaneResult
deriving DecidableEq, Repr

/-- `ScanProtocolFaultSimResult`. -/
structure ScanProtocolFaultSimResult where
  golden : ScanPatternResult
  batches : List ScanProtocolFaultBatchResult := []

/-- The lanes of all batches, one after the other, as the caller flattens them. -/
def ScanProtocolFaultSimResult.allLanes (r : ScanProtocolFaultSimResult) :
    List ScanProtocolFaultLaneResult :=
  r.batches.flatMap ScanProtocolFaultBatchResult.lanes

/-- `make_compact_fault`. -/
def makeCompactFault (spec : ScanProtocolFaultSpec) : CompactFault :=
  { netIndex := spec.compiledNetIndex, type := if spec.faultType = 0 then .SA0 else .SA1 }

/-- The transition at the fault net, which the good machine makes between launch and capture. -/
def transitionMade (samples : List Words) (spec : ScanProtocolFaultSpec) : Bool :=
  let good := fun (i : ℕ) => lane 0 ((samples.getD i fun _ => 0#64) spec.compiledNetIndex)
  good 0 == decide (spec.faultType = 1) && good 1 == decide (spec.faultType = 0)

/-- The outcome in one lane of the samples of a batch. -/
def laneOutcome (golden : ScanPatternResult) (samples : List Words) (spec : ScanProtocolFaultSpec)
    (bit : ℕ) : Except FlowError ScanProtocolFaultOutcome := do
  let faulty ← extractScanLaneObservations g req samples bit
  let detected := !scanObservationsEqual golden faulty &&
    (!req.twoCapture || transitionMade samples spec)
  return if detected then .PASS else .NO_CAPTURE_OR_UNLOAD_EFFECT

/-- A fault of a batch. -/
def checkedFault (spec : ScanProtocolFaultSpec) : Except FlowError CompactFault :=
  if g.cg.netCount ≤ spec.compiledNetIndex then
    .error (.runtimeError "scan protocol fault compiled_net_index out of range")
  else .ok (makeCompactFault spec)

variable (request : ScanProtocolFaultRequest) (hardware : ℕ) (simThreads : ℤ)

/-- `process_batch`. -/
def processBatch (vec : TestVector) (golden : ScanPatternResult) (batchIdx : ℕ) :
    Except FlowError ScanProtocolFaultBatchResult := do
  let first := batchIdx * scanProtocolFaultBatchSize
  let last := min (first + scanProtocolFaultBatchSize) request.faults.length
  -- the faults of the batch, with their indices in the request
  let specs := request.faults.zipIdx.extract first last
  let faults ← specs.mapM fun p => checkedFault g p.1
  let samples := BitParallel.simulateBatchSamples g.cg vec (.ofFaults faults)
  let lanes ← specs.mapM fun p => do
    let outcome ← laneOutcome g request.pattern golden samples p.1 (p.2 - first + 1)
    return { faultIndex := p.2, outcome := outcome }
  return { batchIndex := batchIdx, lanes := lanes }

/-- `effective_sim_threads`; `hardware` is what `std::thread::hardware_concurrency` returns. -/
def effectiveSimThreads : ℕ :=
  if 0 < simThreads then simThreads.toNat else if hardware = 0 then 1 else hardware

/-- The batches of every thread, in the order of the threads. -/
def threadRanges (batchCount : ℕ) : List (List ℕ) :=
  let threads := min (effectiveSimThreads hardware simThreads) batchCount
  if threads ≤ 1 then [List.range batchCount]
  else
    let base := batchCount / threads
    let rem := batchCount % threads
    (List.range threads).map fun t =>
      let lo := t * base + min t rem
      let hi := lo + base + if t < rem then 1 else 0
      List.range' lo (hi - lo)

/-- The batches of a request.  A thread stops at its first error, and the error of the first
thread that has one is rethrown. -/
def gradeFaults (vec : TestVector) (golden : ScanPatternResult) (hardware : ℕ) (simThreads : ℤ) :
    Except FlowError (List ScanProtocolFaultBatchResult) :=
  if request.faults = [] then .ok []
  else do
    let batchCount := (request.faults.length + scanProtocolFaultBatchSize - 1) /
      scanProtocolFaultBatchSize
    let slots ← (threadRanges hardware simThreads batchCount).mapM fun range =>
      range.mapM (processBatch g request vec golden)
    return slots.flatten

/-- `simulate_scan_protocol_faults`. -/
def simulateScanProtocolFaults : Except FlowError ScanProtocolFaultSimResult := do
  let p ← goldenObservations g request.pattern
  let batches ← gradeFaults g request p.1 p.2 hardware simThreads
  return { golden := p.2, batches := batches }

/-! ## Every outcome is that of the fault alone -/

section Alone

variable {g} {req} {σ : ℕ → ℕ → Prop} {samples samples' : List Words} {i k : ℕ} {f : CompactFault}
  {vec : TestVector} {golden : ScanPatternResult}

theorem getD_sameLanes (h : List.Forall₂ (BitParallel.SameLanes σ) samples samples') (i : ℕ) :
    BitParallel.SameLanes σ (samples.getD i fun _ => 0#64) (samples'.getD i fun _ => 0#64) := by
  induction h generalizing i with
  | nil =>
    intro k j _ n
    rw [List.getD_nil, lane_zero, lane_zero]
  | cons hn _ ih =>
    cases i with
    | zero => exact hn
    | succ i => exact ih i

/-- What is observed in a lane is observed in its twin. -/
theorem extractScanLaneObservations_congr
    (h : List.Forall₂ (BitParallel.SameLanes σ) samples samples') {j : ℕ} (hij : σ i j) :
    extractScanLaneObservations g req samples i = extractScanLaneObservations g req samples' j := by
  rw [extractScanLaneObservations, extractScanLaneObservations, h.length_eq]
  congr 1
  funext k port
  simp only [sampleWord]
  cases g.parsed.netIdByName port with
  | error e => rfl
  | ok net =>
    cases hnet : g.cg.yosysToCompiled[net]? with
    | none =>
      simp only [bind, Except.bind, hnet]
      rfl
    | some c =>
      simp only [bind, Except.bind, hnet]
      exact congrArg Except.ok (getD_sameLanes h k i j hij c)

theorem laneOutcome_congr
    (h : List.Forall₂ (BitParallel.SameLanes (BitParallel.aloneLanes i)) samples samples')
    (golden : ScanPatternResult) (spec : ScanProtocolFaultSpec) :
    laneOutcome g req golden samples spec i = laneOutcome g req golden samples' spec 1 := by
  have hgood : ∀ k : ℕ, lane 0 ((samples.getD k fun _ => 0#64) spec.compiledNetIndex) =
      lane 0 ((samples'.getD k fun _ => 0#64) spec.compiledNetIndex) := fun k =>
    getD_sameLanes h k 0 0 (.inl ⟨rfl, rfl⟩) _
  have hmade : transitionMade samples spec = transitionMade samples' spec := by
    simp only [transitionMade, hgood]
  rw [laneOutcome, laneOutcome, hmade, extractScanLaneObservations_congr h (.inr ⟨rfl, rfl⟩)]

/-- The outcome of a fault in a batch of its own. -/
def aloneOutcome (g : CachedGraph) (req : ScanPatternRequest) (vec : TestVector)
    (golden : ScanPatternResult) (spec : ScanProtocolFaultSpec) :
    Except FlowError ScanProtocolFaultOutcome := do
  let fault ← checkedFault g spec
  laneOutcome g req golden (BitParallel.simulateBatchSamples g.cg vec (BitParallel.singleBatch fault))
    spec 1

/-- The lane of a fault, from its outcome alone. -/
def aloneLane (g : CachedGraph) (req : ScanPatternRequest) (vec : TestVector)
    (golden : ScanPatternResult) (p : ScanProtocolFaultSpec × ℕ) :
    Except FlowError ScanProtocolFaultLaneResult := do
  let outcome ← aloneOutcome g req vec golden p.1
  return { faultIndex := p.2, outcome := outcome }

variable {spec : ScanProtocolFaultSpec}

theorem checkedFault_eq_ok (h : checkedFault g spec = .ok f) : f = makeCompactFault spec := by
  unfold checkedFault at h
  split at h
  · cases h
  · exact (Except.ok.inj h).symm

/-- The samples of a lane of a batch are those of its fault alone. -/
theorem simulateBatchSamples_alone {faults : List CompactFault}
    (hopen : ∀ f ∈ faults, f.exclusion = .NONE) (hlen : faults.length ≤ 63)
    (hf : faults[k]? = some f) (cg : CompiledSimGraph) (vec : TestVector) :
    List.Forall₂ (BitParallel.SameLanes (BitParallel.aloneLanes (k + 1)))
      (BitParallel.simulateBatchSamples cg vec (.ofFaults faults))
      (BitParallel.simulateBatchSamples cg vec (BitParallel.singleBatch f)) := by
  have hk := (List.getElem?_eq_some_iff.1 hf).1
  have htwins : BitParallel.Twins (BitParallel.aloneLanes (k + 1)) (.ofFaults faults)
      (BitParallel.singleBatch f) :=
    BitParallel.twins_singleBatch (FaultBatch.wellFormed_ofFaults hopen hlen)
      (show k + 1 < 64 by omega) (FaultBatch.inLane_ofFaults hf) rfl rfl
      (hopen f (List.mem_of_getElem? hf))
  exact BitParallel.runCycles_twins htwins cg _ [] _ (htwins.init cg vec)

/-- The faults of a batch stand at consecutive indices. -/
theorem snd_of_mem_extract {faults : List ScanProtocolFaultSpec} {first last : ℕ}
    {p : ScanProtocolFaultSpec × ℕ} (h : (faults.zipIdx.extract first last)[k]? = some p) :
    p.2 = first + k := by
  rw [List.extract_eq_take_drop] at h
  have hlt := (List.getElem?_eq_some_iff.1 h).1
  rw [List.length_take] at hlt
  rw [List.getElem?_take_of_lt (by omega), List.getElem?_drop, List.getElem?_zipIdx] at h
  obtain ⟨spec, -, rfl⟩ := Option.map_eq_some_iff.1 h
  exact Nat.zero_add _

/-- **A batch returns its lanes exactly when every fault returns alone**, and then the same. -/
theorem processBatch_eq_ok_iff {request : ScanProtocolFaultRequest} {b : ℕ}
    {r : ScanProtocolFaultBatchResult} : processBatch g request vec golden b = .ok r ↔
      r.batchIndex = b ∧
        (request.faults.zipIdx.extract (b * scanProtocolFaultBatchSize)
          (min (b * scanProtocolFaultBatchSize + scanProtocolFaultBatchSize)
            request.faults.length)).mapM (aloneLane g request.pattern vec golden) = .ok r.lanes := by
  simp only [processBatch]
  generalize hfirst : b * scanProtocolFaultBatchSize = first
  generalize hspecs : request.faults.zipIdx.extract first
    (min (first + scanProtocolFaultBatchSize) request.faults.length) = specs
  have hlen : specs.length ≤ 63 := by
    rw [← hspecs, List.extract_eq_take_drop, List.length_take]
    simp only [scanProtocolFaultBatchSize]
    omega
  cases hfaults : specs.mapM fun p => checkedFault g p.1 with
  | error e =>
    -- a fault out of range fails alone too
    refine ⟨(fun h => nomatch h), fun h => ?_⟩
    obtain ⟨faults, hok⟩ := exists_mapM_eq_ok (f := fun p => checkedFault g p.1) (l := specs)
      fun p hp => by
        obtain ⟨k, hk⟩ := List.getElem?_of_mem hp
        obtain ⟨_, hlane, -⟩ := getElem?_of_mapM_eq_ok h.2 hk
        obtain ⟨_, houtcome, -⟩ := bind_eq_ok.1 hlane
        obtain ⟨fault, hfault, -⟩ := bind_eq_ok.1 houtcome
        exact ⟨fault, hfault⟩
    rw [hfaults] at hok
    cases hok
  | ok faults =>
    have hlength : faults.length = specs.length :=
      (mapM_eq_ok_iff_forall₂.1 hfaults).length_eq.symm
    have hopen : ∀ f ∈ faults, f.exclusion = .NONE := by
      intro f hf
      obtain ⟨p, -, hp⟩ := (mem_of_mapM_eq_ok hfaults).1 hf
      rw [checkedFault_eq_ok hp]
      rfl
    have hlanes : ∀ p ∈ specs, (do
        let outcome ← laneOutcome g request.pattern golden
          (BitParallel.simulateBatchSamples g.cg vec (.ofFaults faults)) p.1 (p.2 - first + 1)
        return { faultIndex := p.2, outcome := outcome }) =
        aloneLane g request.pattern vec golden p := by
      intro p hp
      obtain ⟨k, hk⟩ := List.getElem?_of_mem hp
      obtain ⟨fault, hfault, hk'⟩ := getElem?_of_mapM_eq_ok hfaults hk
      rw [← hspecs] at hk
      have hlane : p.2 - first + 1 = k + 1 := by
        rw [snd_of_mem_extract hk]
        omega
      rw [aloneLane, aloneOutcome, hlane, hfault, laneOutcome_congr
        (simulateBatchSamples_alone hopen (by omega) hk' g.cg vec)]
      rfl
    constructor
    · intro h
      obtain ⟨_, hret, h⟩ := bind_eq_ok.1 h
      cases hret
      obtain ⟨lanes, hlanes', hret⟩ := bind_eq_ok.1 h
      cases hret
      exact ⟨rfl, (mapM_congr hlanes).symm.trans hlanes'⟩
    · rintro ⟨rfl, h⟩
      exact bind_eq_ok.2 ⟨faults, rfl, bind_eq_ok.2 ⟨r.lanes, (mapM_congr hlanes).trans h, rfl⟩⟩

/-- The threads' batches are all batches, in order. -/
theorem flatten_threadRanges (hardware : ℕ) (simThreads : ℤ) (batchCount : ℕ) :
    (threadRanges hardware simThreads batchCount).flatten = List.range batchCount := by
  simp only [threadRanges]
  split
  · simp
  · rename_i hthreads
    generalize min (effectiveSimThreads hardware simThreads) batchCount = threads at *
    have hpieces := flatMap_extract (List.range batchCount) (share_monotone batchCount threads)
      threads
    rw [share_zero, share_last (by omega)] at hpieces
    rw [← List.flatMap_def]
    refine Eq.trans (List.flatMap_congr fun t ht => ?_) (hpieces.trans (by simp))
    have hlast := share_monotone batchCount threads (show t + 1 ≤ threads from List.mem_range.1 ht)
    rw [share_last (by omega)] at hlast
    rw [extract_range hlast, share_succ]
    rfl

section Request

variable {request} {hardware} {simThreads}

/-- Whatever the threads, the batches are processed one after the other. -/
theorem gradeFaults_eq : gradeFaults g request vec golden hardware simThreads =
    (List.range ((request.faults.length + scanProtocolFaultBatchSize - 1) /
      scanProtocolFaultBatchSize)).mapM (processBatch g request vec golden) := by
  unfold gradeFaults
  split
  · rename_i hnil
    rw [hnil]
    rfl
  · rw [← flatten_threadRanges hardware simThreads, mapM_flatten]

/-- The faults of a request, batch by batch. -/
theorem flatMap_batches (l : List (ScanProtocolFaultSpec × ℕ)) :
    ((List.range ((l.length + scanProtocolFaultBatchSize - 1) /
      scanProtocolFaultBatchSize)).flatMap fun b =>
        l.extract (b * scanProtocolFaultBatchSize)
          (min (b * scanProtocolFaultBatchSize + scanProtocolFaultBatchSize) l.length)) = l := by
  have hpieces := flatMap_pieces l (w := scanProtocolFaultBatchSize) (by decide)
    (Nat.zero_le l.length)
  simp only [Nat.sub_zero, Nat.zero_add] at hpieces
  rw [hpieces]
  simp [List.extract_eq_take_drop]

/-- **The batches of a request hold one lane for each fault**, with its outcome alone. -/
theorem gradeFaults_lanes {batches : List ScanProtocolFaultBatchResult}
    (h : gradeFaults g request vec golden hardware simThreads = .ok batches) :
    request.faults.zipIdx.mapM (aloneLane g request.pattern vec golden) =
      .ok (batches.flatMap ScanProtocolFaultBatchResult.lanes) := by
  rw [gradeFaults_eq, mapM_eq_ok_iff_forall₂] at h
  conv_lhs => rw [← flatMap_batches request.faults.zipIdx, List.flatMap_def, mapM_flatten,
    List.mapM_map]
  refine bind_eq_ok.2 ⟨batches.map ScanProtocolFaultBatchResult.lanes, ?_, ?_⟩
  · rw [mapM_eq_ok_iff_forall₂, List.forall₂_map_right_iff, List.length_zipIdx]
    exact h.imp fun b r hr => (processBatch_eq_ok_iff.1 hr).2
  · rw [List.flatMap_def]
    rfl

/-- The batches are returned when every fault returns alone. -/
theorem exists_gradeFaults (hardware : ℕ) (simThreads : ℤ)
    (h : ∀ spec ∈ request.faults, ∃ o, aloneOutcome g request.pattern vec golden spec = .ok o) :
    ∃ batches, gradeFaults g request vec golden hardware simThreads = .ok batches := by
  rw [gradeFaults_eq]
  refine exists_mapM_eq_ok fun b _ => ?_
  obtain ⟨lanes, hlanes⟩ := exists_mapM_eq_ok (f := aloneLane g request.pattern vec golden)
    (l := request.faults.zipIdx.extract (b * scanProtocolFaultBatchSize)
      (min (b * scanProtocolFaultBatchSize + scanProtocolFaultBatchSize) request.faults.length))
    fun p hp => by
      rw [List.extract_eq_take_drop] at hp
      obtain ⟨o, ho⟩ := h p.1
        (List.fst_mem_of_mem_zipIdx (List.mem_of_mem_drop (List.mem_of_mem_take hp)))
      exact ⟨_, by rw [aloneLane, ho]; rfl⟩
  exact ⟨{ batchIndex := b, lanes := lanes }, processBatch_eq_ok_iff.2 ⟨rfl, hlanes⟩⟩

end Request

/-- A request of one fault, with one thread. -/
def simulateAlone (g : CachedGraph) (req : ScanPatternRequest) (hardware : ℕ)
    (spec : ScanProtocolFaultSpec) : Except FlowError ScanProtocolFaultSimResult :=
  simulateScanProtocolFaults g { pattern := req, faults := [spec] } hardware 1

theorem simulateAlone_of_outcome (hgolden : goldenObservations g req = .ok (vec, golden))
    {o : ScanProtocolFaultOutcome} (ho : aloneOutcome g req vec golden spec = .ok o) (hardware : ℕ) :
    ∃ alone, simulateAlone g req hardware spec = .ok alone ∧
      alone.allLanes = [{ faultIndex := 0, outcome := o }] := by
  have hfaults : ∀ spec' ∈ ({ pattern := req, faults := [spec] } : ScanProtocolFaultRequest).faults,
      ∃ o, aloneOutcome g req vec golden spec' = .ok o := by
    simpa using ⟨o, ho⟩
  obtain ⟨batches, hbatches⟩ := exists_gradeFaults hardware 1 hfaults
  refine ⟨{ golden := golden, batches := batches }, ?_, ?_⟩
  · exact bind_eq_ok.2 ⟨(vec, golden), hgolden, bind_eq_ok.2 ⟨batches, hbatches, rfl⟩⟩
  · have hlanes := gradeFaults_lanes hbatches
    simp only [List.zipIdx_singleton, List.mapM_cons, List.mapM_nil, aloneLane, ho] at hlanes
    exact (Except.ok.inj hlanes).symm

theorem outcome_of_simulateAlone {hardware : ℕ} {alone : ScanProtocolFaultSimResult}
    (h : simulateAlone g req hardware spec = .ok alone) :
    ∃ vec golden o, goldenObservations g req = .ok (vec, golden) ∧
      aloneOutcome g req vec golden spec = .ok o := by
  obtain ⟨⟨vec, golden⟩, hgolden, h⟩ := bind_eq_ok.1 h
  obtain ⟨batches, hbatches, -⟩ := bind_eq_ok.1 h
  obtain ⟨_, hlane, -⟩ := getElem?_of_mapM_eq_ok (gradeFaults_lanes hbatches) (k := 0) rfl
  obtain ⟨o, ho, -⟩ := bind_eq_ok.1 hlane
  exact ⟨vec, golden, o, hgolden, ho⟩

/-- Whether a fault passes when it is requested alone. -/
def passesAlone (g : CachedGraph) (req : ScanPatternRequest) (hardware : ℕ)
    (spec : ScanProtocolFaultSpec) : Bool :=
  match simulateAlone g req hardware spec with
  | .ok alone => alone.allLanes.map ScanProtocolFaultLaneResult.outcome == [.PASS]
  | .error _ => false

/-- The faults that the caller credits: it pairs the ids with the lanes by position. -/
def passedFaultIds (ids : List ℕ) (r : ScanProtocolFaultSimResult) : List ℕ :=
  ((ids.zip r.allLanes).filter fun p => p.2.outcome = .PASS).map Prod.fst

/-- Pairing by position credits the faults that pass alone. -/
theorem passed_of_forall₂ {passes : ScanProtocolFaultSpec → Bool}
    {requested : List (ℕ × ScanProtocolFaultSpec)} {lanes : List ScanProtocolFaultLaneResult}
    (h : List.Forall₂ (fun spec lane => passes spec = decide (lane.outcome = .PASS))
      (requested.map Prod.snd) lanes) :
    (((requested.map Prod.fst).zip lanes).filter fun p => p.2.outcome = .PASS).map Prod.fst =
      (requested.filter fun p => passes p.2).map Prod.fst := by
  induction requested generalizing lanes with
  | nil =>
    cases h
    rfl
  | cons p requested ih =>
    obtain ⟨lane, rest, hlane, hrest, rfl⟩ := List.forall₂_cons_left_iff.1 h
    rw [List.map_cons, List.zip_cons_cons, List.filter_cons, List.filter_cons, hlane]
    split <;> simp [ih hrest]

/-- **The outcomes are those of the faults requested one by one, in order**, whatever the number
of faults and threads: the lanes are numbered as the faults are, each holds the outcome of its
fault alone with one thread, and the caller credits the faults that pass alone.  And the request
returns when every fault alone does. -/
theorem simulateScanProtocolFaults_alone (g : CachedGraph) (req : ScanPatternRequest)
    (requested : List (ℕ × ScanProtocolFaultSpec)) (hardware : ℕ) (simThreads : ℤ) :
    (∀ out, simulateScanProtocolFaults g { pattern := req, faults := requested.map Prod.snd }
        hardware simThreads = .ok out →
      out.allLanes.map ScanProtocolFaultLaneResult.faultIndex = List.range requested.length ∧
      List.Forall₂ (fun spec lane => ∃ alone, simulateAlone g req hardware spec = .ok alone ∧
          alone.allLanes.map ScanProtocolFaultLaneResult.outcome = [lane.outcome])
        (requested.map Prod.snd) out.allLanes ∧
      passedFaultIds (requested.map Prod.fst) out =
        (requested.filter fun p => passesAlone g req hardware p.2).map Prod.fst) ∧
    (requested ≠ [] →
      (∀ p ∈ requested, ∃ alone, simulateAlone g req hardware p.2 = .ok alone) →
      ∃ out, simulateScanProtocolFaults g { pattern := req, faults := requested.map Prod.snd }
        hardware simThreads = .ok out) := by
  constructor
  · intro out hout
    obtain ⟨⟨vec, golden⟩, hgolden, hout⟩ := bind_eq_ok.1 hout
    obtain ⟨batches, hbatches, hret⟩ := bind_eq_ok.1 hout
    cases hret
    have hlanes := mapM_eq_ok_iff_forall₂.1 (gradeFaults_lanes hbatches)
    have halone : List.Forall₂ (fun (p : ScanProtocolFaultSpec × ℕ) lane =>
        p.2 = lane.faultIndex ∧ aloneOutcome g req vec golden p.1 = .ok lane.outcome)
        (requested.map Prod.snd).zipIdx (batches.flatMap ScanProtocolFaultBatchResult.lanes) := by
      refine hlanes.imp fun p lane h => ?_
      obtain ⟨o, ho, hret⟩ := bind_eq_ok.1 h
      cases hret
      exact ⟨rfl, ho⟩
    have houtcome : List.Forall₂ (fun spec lane =>
        aloneOutcome g req vec golden spec = .ok lane.outcome) (requested.map Prod.snd)
        (batches.flatMap ScanProtocolFaultBatchResult.lanes) := by
      conv in requested.map Prod.snd => rw [← List.zipIdx_map_fst 0 (requested.map Prod.snd)]
      exact List.forall₂_map_left_iff.2 (halone.imp fun _ _ h => h.2)
    refine ⟨?_, houtcome.imp fun spec lane ho => ?_,
      passed_of_forall₂ (houtcome.imp fun spec lane ho => ?_)⟩
    · rw [ScanProtocolFaultSimResult.allLanes,
        ← map_eq_map_of_forall₂ (halone.imp fun _ _ h => h.1),
        List.zipIdx_map_snd, List.length_map, List.range_eq_range']
    · obtain ⟨alone, h, hl⟩ := simulateAlone_of_outcome hgolden ho hardware
      exact ⟨alone, h, by rw [hl]; rfl⟩
    · obtain ⟨alone, h, hl⟩ := simulateAlone_of_outcome hgolden ho hardware
      simp only [passesAlone, h, hl]
      cases lane.outcome <;> rfl
  · intro hne hall
    obtain ⟨p, hp⟩ := List.exists_mem_of_ne_nil requested hne
    obtain ⟨alone, h⟩ := hall p hp
    obtain ⟨vec, golden, -, hgolden, -⟩ := outcome_of_simulateAlone h
    have hfaults : ∀ spec ∈ ({ pattern := req, faults := requested.map Prod.snd } :
        ScanProtocolFaultRequest).faults, ∃ o, aloneOutcome g req vec golden spec = .ok o := by
      intro spec hspec
      obtain ⟨q, hq, rfl⟩ := List.mem_map.1 hspec
      obtain ⟨_, h⟩ := hall q hq
      obtain ⟨vec', golden', o, hgolden', ho⟩ := outcome_of_simulateAlone h
      cases hgolden.symm.trans hgolden'
      exact ⟨o, ho⟩
    obtain ⟨batches, hbatches⟩ := exists_gradeFaults hardware simThreads hfaults
    exact ⟨_, bind_eq_ok.2 ⟨(vec, golden), hgolden, bind_eq_ok.2 ⟨batches, hbatches, rfl⟩⟩⟩

end Alone

/-- The cells that the tool inserts. -/
def scanCells : CellMap where
  patterns := CellLibraries.toolCells
  parsed := by decide +kernel

/-- A chain of one flip-flop. -/
def oneFlop : CachedGraph :=
  .load (.ofCells [("a", 2), ("si", 3), ("se", 4), ("ck", 5)] [("so", 6)]
      [("f", .ofPins "$scanff_faultflow"
        [("D", 2), ("SDI", 3), ("SE", 4), ("CLK", 5), ("Q", 6)])])
    scanCells "fail" ∅ (by decide +kernel) (by decide +kernel)

/-- The flip-flop is loaded with `1` and captures `1`. -/
def oneFlopPattern : ScanPatternRequest :=
  { clockPorts := ["ck"], scanEnablePort := "se", scanInputPorts := ["si"]
    scanOutputPorts := ["so"], maxChainLength := 1
    loadSeqs := TreeMap.ofList [((0 : ℤ), [true])]
    capturePiValues := TreeMap.ofList [("a", true)] }

/-- Its output stuck at either value, under two ids. -/
def oneFlopFaults : List (ℕ × ScanProtocolFaultSpec) :=
  [(7, { compiledNetIndex := 4 }), (8, { compiledNetIndex := 4, faultType := 1 })]

/-- The fault stuck at 0 is credited, under its own id. -/
theorem oneFlop_passed : ∃ out,
    simulateScanProtocolFaults oneFlop
      { pattern := oneFlopPattern, faults := oneFlopFaults.map Prod.snd } 1 4 = .ok out ∧
    passedFaultIds (oneFlopFaults.map Prod.fst) out = [7] := by
  obtain ⟨hlanes, hreturns⟩ :=
    simulateScanProtocolFaults_alone oneFlop oneFlopPattern oneFlopFaults 1 4
  have halone : ∀ p ∈ oneFlopFaults, (simulateAlone oneFlop oneFlopPattern 1 p.2).isOk = true := by
    decide +kernel
  obtain ⟨out, hout⟩ := hreturns (by decide) fun p hp => ⟨_, Lib.eq_ok_resultOf _ (halone p hp)⟩
  exact ⟨out, hout, (hlanes out hout).2.2.trans (by decide +kernel)⟩

end Scan

end FaultFlow
