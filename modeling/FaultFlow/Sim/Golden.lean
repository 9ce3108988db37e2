/-
# The golden reference simulator

`src/core/sim/golden_ref/golden_ref_sim.cpp`: one Boolean per net, one fault at
a time.  A vector of net values is a total function of the net index, since the
compiler keeps every index below `net_count`; a snapshot maps the Yosys nets
that `yosys_to_compiled` names to their values.

The loops over levels that the source repeats in each entry point are one
function, `evalNode`, with the value of a node as a parameter: `plainValue` in
`simulate_fault_free` and `simulate_with_fault`, `modeValue` in
`evaluate_combinational` and `run_comb_mode`, which treat wrapper cells apart.
-/

import FaultFlow.Fault.Effect
import FaultFlow.IR.ModeConfig
import FaultFlow.Sim.GateEval
import FaultFlow.Sim.TestVector

namespace FaultFlow

/-- `std::vector<bool> values`. -/
abbrev Values := CompiledNetIndex → Bool

/-- `std::map<int, bool>` as a snapshot returns it. -/
abbrev Snapshot := YosysNetID → Option Bool

/-- The value in a slot, with `false` for an unused one. -/
def slotValue (values : Values) (slot : Option CompiledNetIndex) : Bool :=
  match slot with
  | some net => values net
  | none => false

namespace Golden

variable (cg : CompiledSimGraph) (values : Values) (vec : TestVector) (fault : Option CompactFault)
  (mc : Option ModeConfig)

/-- `apply_fault`; a null or excluded fault does nothing. -/
def applyFault (net : CompiledNetIndex) : Values :=
  match fault with
  | some f =>
    if f.exclusion = .NONE ∧ f.netIndex = net then Function.update values net f.value else values
  | none => values

/-- Write a net, then let the fault have its way with it. -/
def write (values : Values) (net : CompiledNetIndex) (b : Bool) : Values :=
  applyFault (Function.update values net b) fault net

/-- Drive nets from a map of inputs, `false` where it is silent: the loops over
`pi_nets` and over `stimulus_nets`. -/
def driveNets (inputs : Std.TreeMap YosysNetID Bool) (fault : Option CompactFault)
    (nets : List CompiledNetIndex) (values : Values) : Values :=
  nets.foldl (fun v net => write fault v net (inputs.getD (cg.yosysOf net) false)) values

/-- `broadcast_inputs`. -/
def broadcastInputs (cycle : TestCycle) (values : Values) (fault : Option CompactFault) : Values :=
  driveNets cg cycle.inputs fault cg.piNets values

/-- `snapshot`. -/
def snapshot : Snapshot :=
  fun yid => (cg.yosysToCompiled[yid]?).map values

/-- `seed_ff_outputs`. -/
def seedFfOutputs (ffStates : Nat → Bool) (values : Values) (fault : Option CompactFault) :
    Values := cg.ffs.zipIdx.foldl (fun v p => write fault v p.1.out (ffStates p.2)) values

/-- The value of a gate from its packed inputs: unused slots are left out. -/
def plainValue (sn : SimNode) : Bool :=
  match sn.type with
  | .CONST0 => false
  | .CONST1 => true
  | type => evalGateScalar type (sn.inputNets.map values)

/-- The value of a node under the wrapper actions of a mode. -/
def modeValue (action : CompiledNetIndex → WbrAction) (values : Values) (sn : SimNode) : Bool :=
  if sn.type = .WBR_IN ∨ sn.type = .WBR_OUT then
    match action sn.out with
    | .SKIP_STIMULUS => values sn.out
    | .FORCE_ZERO => false
    | .DRIVE_FROM_FF => slotValue values (sn.ins 1)
    | .PASS => slotValue values (sn.ins 0)
  else plainValue values sn

/-- `eval_node`: sources and flip-flops are skipped. -/
def evalNode (value : Values → SimNode → Bool) (fault : Option CompactFault) (values : Values)
    (sn : SimNode) : Values :=
  if sn.IsSource then values else write fault values sn.out (value values sn)

/-- The wrapper action of each net; without a mode every wrapper passes. -/
def actionOf (net : CompiledNetIndex) : WbrAction :=
  match mc with
  | some mc => mc.wbrAction net
  | none => .PASS

/-- `evaluate_combinational`. -/
def evaluateCombinational : Values :=
  cg.passNodes.foldl (evalNode (modeValue (actionOf mc)) fault) values

/-- `control_active`. -/
def controlActive (value : Bool) (polarity : Polarity) : Bool :=
  if polarity = .ACTIVE_HIGH then value else !value

/-- `edge_active`. -/
def edgeActive (prev cur : Bool) (trigger : TriggerType) : Bool :=
  if trigger = .POSEDGE then !prev && cur else prev && !cur

/-- The next state of one flip-flop: scan shift gates the asynchronous controls
off, those come before the clock edge, and an inactive enable holds. -/
def nextFfState (cfg : CompiledFFConfig) (sn : SimNode) (values prevValues : Values)
    (state : Bool) : Bool :=
  let scanActive := cfg.hasScan && (sn.ins 4).isSome && (sn.ins 5).isSome &&
    controlActive (slotValue values (sn.ins 5)) cfg.scanEnablePolarity
  let clearActive := !scanActive && cfg.hasClear && (sn.ins 2).isSome &&
    controlActive (slotValue values (sn.ins 2)) cfg.clearPolarity
  let presetActive := !scanActive && cfg.hasPreset && (sn.ins 3).isSome &&
    controlActive (slotValue values (sn.ins 3)) cfg.presetPolarity
  if clearActive && presetActive then cfg.clearPresetConflictValue != 0
  else if clearActive then cfg.clearValue != 0
  else if presetActive then cfg.presetValue != 0
  else if edgeActive (slotValue prevValues (sn.ins 1)) (slotValue values (sn.ins 1)) cfg.trigger
  then
    if scanActive then slotValue values (sn.ins 4)
    else if cfg.hasEnable && (sn.ins 2).isSome &&
        !controlActive (slotValue values (sn.ins 2)) cfg.enablePolarity then state
    else slotValue values (sn.ins 0)
  else state

/-- `update_ff_states`. -/
def updateFfStates (prevValues : Values) (ffStates : Nat → Bool) : Nat → Bool :=
  cg.ffs.zipIdx.foldl (fun next p =>
    Function.update next p.2
      (nextFfState (cg.ffConfig p.1) p.1 values prevValues (next p.2))) ffStates

/-- The variables of `run_sequence` that live across cycles. -/
structure State where
  values : Values := fun _ => false
  prevValues : Values := fun _ => false
  ffStates : Nat → Bool

/-- Seed the flip-flop outputs and evaluate, as every half of a cycle does. -/
def settle (ffStates : Nat → Bool) (values : Values) : Values :=
  evaluateCombinational cg (seedFfOutputs cg ffStates values fault) fault mc

/-- One cycle of `run_sequence`. -/
def runCycle (st : State) (cycle : TestCycle) : State :=
  let cycleFault := if cycle.faultActive then fault else none
  let values := broadcastInputs cg cycle st.values cycleFault
  let values := settle cg cycleFault mc st.ffStates values
  let ffStates := updateFfStates cg values st.prevValues st.ffStates
  let values := settle cg cycleFault mc ffStates values
  let values := (List.range cycle.settleCycles).foldl
    (fun v _ => settle cg cycleFault mc ffStates v) values
  { values := values, prevValues := values, ffStates := ffStates }

/-- The flip-flop states a vector starts from. -/
def initialFfStates (idx : Nat) : Bool :=
  if idx < cg.ffConfigs.length then vec.initialFfState.getD idx false else false

/-- `mcp`: the mode configuration, for wrapper cells outside `FUNCTIONAL`. -/
def sequenceMode : Option ModeConfig :=
  if vec.testMode ≠ .FUNCTIONAL ∧ cg.wrapperCells ≠ [] then
    some (buildModeConfig cg vec.testMode)
  else none

/-- The loop of `run_sequence`, with the net values of the sampled cycles. -/
def runCycles (cg : CompiledSimGraph) (fault : Option CompactFault) (mc : Option ModeConfig) :
    State → List TestCycle → List Values
  | _, [] => []
  | st, cycle :: cycles =>
    let st := runCycle cg fault mc st cycle
    if cycle.sampleOutputs then st.values :: runCycles cg fault mc st cycles
    else runCycles cg fault mc st cycles

/-- `run_sequence` with `sample_yids = nullptr`. -/
def runSequence (fault : CompactFault) : List Snapshot :=
  let activeFault := if fault.exclusion = .NONE then some fault else none
  (runCycles cg activeFault (sequenceMode cg vec) { ffStates := initialFfStates cg vec }
    vec.cyclesFor).map (snapshot cg)

/-- `simulate_sequence_fault_free`: a run with an excluded fault. -/
def simulateSequenceFaultFree : List Snapshot :=
  runSequence cg vec { netIndex := 0, exclusion := .BLACKBOX }

/-- `simulate_sequence_with_fault`. -/
def simulateSequenceWithFault (fault : CompactFault) : List Snapshot := runSequence cg vec fault

/-- `is_detected`.  The source reads both maps with `at`; every observable net
is named by `yosys_to_compiled`. -/
def isDetected (faultFree faulty : Snapshot) : Bool :=
  cg.observable.any fun cidx => faultFree (cg.yosysOf cidx) != faulty (cg.yosysOf cidx)

/-- `is_sequence_detected`. -/
def isSequenceDetected (faultFree faulty : List Snapshot) : Bool :=
  (faultFree.zip faulty).any fun p => isDetected cg p.1 p.2

/-- The single combinational pass of `simulate_fault_free` and
`simulate_with_fault`. -/
def combPass : Values :=
  cg.passNodes.foldl (evalNode plainValue fault)
    (driveNets cg vec.inputs fault cg.piNets fun _ => false)

/-- `simulate_fault_free`. -/
def simulateFaultFree : Snapshot :=
  let comb := snapshot cg (combPass cg vec none)
  if cg.ffConfigs ≠ [] ∨ vec.isSequential = true then
    ((simulateSequenceFaultFree cg vec).getLast?).getD comb
  else comb

/-- `simulate_with_fault`. -/
def simulateWithFault (fault : CompactFault) : Snapshot :=
  let comb :=
    if fault.exclusion ≠ .NONE then simulateFaultFree cg vec
    else snapshot cg (combPass cg vec (some fault))
  if cg.ffConfigs ≠ [] ∨ vec.isSequential = true then
    ((simulateSequenceWithFault cg vec fault).getLast?).getD comb
  else comb

/-- `run_comb_mode`. -/
def runCombMode (mc : ModeConfig) : Values :=
  let values := driveNets cg vec.inputs fault cg.piNets fun _ => false
  let values := driveNets cg vec.inputs fault mc.stimulusNets values
  evaluateCombinational cg values fault (some mc)

/-- The mode-aware `simulate_fault_free`. -/
def simulateFaultFreeMode (mc : ModeConfig) : Snapshot := snapshot cg (runCombMode cg vec none mc)

/-- The mode-aware `simulate_with_fault`. -/
def simulateWithFaultMode (fault : CompactFault) (mc : ModeConfig) : Snapshot :=
  snapshot cg (runCombMode cg vec (if fault.exclusion = .NONE then some fault else none) mc)

/-- The mode-aware `is_detected`: a net that one map does not name is skipped. -/
def isDetectedMode (faultFree faulty : Snapshot) (mc : ModeConfig) : Bool :=
  mc.observableNets.any fun cidx =>
    match faultFree (cg.yosysOf cidx), faulty (cg.yosysOf cidx) with
    | some a, some b => a != b
    | _, _ => false

/-- `simulate_transition_fault`: the good machine makes the transition at the
fault net, and the capture cycle with the fault shows it.  `SA0` is
slow-to-rise, `SA1` slow-to-fall. -/
def simulateTransitionFault (v1 v2 : TestVector) (fault : CompactFault) : Bool :=
  if fault.exclusion ≠ .NONE then false
  else
    let combined := TestVector.launchCapture v1 v2
    let good := simulateSequenceFaultFree cg combined
    match good with
    | initSnap :: capSnap :: _ =>
      let target := cg.yosysOf fault.netIndex
      initSnap target == some fault.value && capSnap target == some (!fault.value) &&
        isSequenceDetected cg good (simulateSequenceWithFault cg combined fault)
    | _ => false

end Golden

end FaultFlow
