/-
# The bit-parallel fault simulator

`src/core/sim/engine/bit_parallel_sim.cpp`: one word per net, lane `0` for the
good machine and one fault in each other lane.  Unlike the golden reference,
which forces a faulty net when it writes it, the engine also forces every faulty
net once before a cycle is evaluated, and it reads gate inputs by position, with
zero in an unused slot.
-/

import FaultFlow.Fault.Effect
import FaultFlow.IR.ModeConfig
import FaultFlow.Sim.GateEval
import FaultFlow.Sim.TestVector

namespace FaultFlow

open Lib

/-- `std::vector<uint64_t>`: the word of each net. -/
abbrev Words := CompiledNetIndex → Word

namespace BitParallel

/-- `gather_input`. -/
def gatherInput (nv : Words) (slot : Option CompiledNetIndex) : Word :=
  match slot with
  | some net => nv net
  | none => 0#64

/-- `active_mask`. -/
def activeMask (value : Word) (polarity : Polarity) : Word :=
  if polarity = .ACTIVE_HIGH then value else ~~~value

/-- `edge_mask`. -/
def edgeMask (prev cur : Word) (trigger : TriggerType) : Word :=
  if trigger = .POSEDGE then ~~~prev &&& cur else prev &&& ~~~cur

/-- `apply_value_mask`. -/
def applyValueMask (original mask : Word) (value : Nat) : Word :=
  if value = 0 then original &&& ~~~mask else original ||| mask

variable (cg : CompiledSimGraph) (vec : TestVector) (batch : FaultBatch)

/-- Drive nets from a map of inputs, in every lane: the loops over `pi_nets`
(`broadcast_cycle_inputs`) and over `stimulus_nets`. -/
def driveNets (inputs : Std.TreeMap YosysNetID Bool) (nets : List CompiledNetIndex) (nv : Words) :
    Words :=
  nets.foldl (fun v net =>
    Function.update v net (broadcast (inputs.getD (cg.yosysOf net) false))) nv

/-- What one fault does to the word of its net. -/
def forceWord (f : CompactFault) (w : Word) : Word :=
  if f.type = .SA0 then w &&& ~~~f.saMask else w ||| f.saMask

/-- `inject_faults`, as a function of the word of the net. -/
def injectWord (net : CompiledNetIndex) (w : Word) : Word :=
  batch.faults.foldl (fun w f => if f.netIndex ≠ net then w else forceWord f w) w

/-- `inject_faults`. -/
def injectFaults (nv : Words) (batch : FaultBatch) (net : CompiledNetIndex) : Words :=
  Function.update nv net (injectWord batch net (nv net))

/-- The loop that injects at the net of every fault before a cycle. -/
def injectAll (nv : Words) : Words :=
  batch.faults.foldl (fun nv f => injectFaults nv batch f.netIndex) nv

/-- The word of a gate from its inputs by position. -/
def plainWord (nv : Words) (sn : SimNode) : Word :=
  match sn.type with
  | .CONST0 => 0#64
  | .CONST1 => BitVec.allOnes 64
  | type => evalGate type (sn.slots.map (gatherInput nv))

/-- The word of a node under the wrapper actions of a mode. -/
def modeWord (action : CompiledNetIndex → WbrAction) (nv : Words) (sn : SimNode) : Word :=
  if sn.type = .WBR_IN ∨ sn.type = .WBR_OUT then
    match action sn.out with
    | .SKIP_STIMULUS => nv sn.out
    | .FORCE_ZERO => 0#64
    | .DRIVE_FROM_FF => gatherInput nv (sn.ins 1)
    | .PASS => gatherInput nv (sn.ins 0)
  else plainWord nv sn

/-- One node; `fault_present` gates the injection. -/
def evalNode (word : Words → SimNode → Word) (batch : FaultBatch) (nv : Words) (sn : SimNode) :
    Words :=
  if sn.IsSource then nv
  else
    let nv := Function.update nv sn.out (word nv sn)
    if batch.faults.any fun f => f.netIndex = sn.out then injectFaults nv batch sn.out else nv

/-- `evaluate_combinational`, and with a mode `evaluate_combinational_mode`. -/
def evaluate (mc : Option ModeConfig) (nv : Words) : Words :=
  match mc with
  | none => cg.passNodes.foldl (evalNode plainWord batch) nv
  | some mc => cg.passNodes.foldl (evalNode (modeWord mc.wbrAction) batch) nv

/-- `seed_ff_outputs`. -/
def seedFfOutputs (ffStates : Nat → Word) (nv : Words) : Words :=
  cg.ffs.zipIdx.foldl (fun nv p =>
    injectFaults (Function.update nv p.1.out (ffStates p.2)) batch p.1.out) nv

/-- The next state word of one flip-flop. -/
def nextFfState (cfg : CompiledFFConfig) (sn : SimNode) (nv prevValues : Words) (state : Word) :
    Word :=
  let hasScan := cfg.hasScan && (sn.ins 4).isSome && (sn.ins 5).isSome
  let scanActive :=
    if hasScan then activeMask (gatherInput nv (sn.ins 5)) cfg.scanEnablePolarity else 0#64
  let clear :=
    if cfg.hasClear && (sn.ins 2).isSome then
      activeMask (gatherInput nv (sn.ins 2)) cfg.clearPolarity &&& ~~~scanActive
    else 0#64
  let preset :=
    if cfg.hasPreset && (sn.ins 3).isSome then
      activeMask (gatherInput nv (sn.ins 3)) cfg.presetPolarity &&& ~~~scanActive
    else 0#64
  let edge := edgeMask (gatherInput prevValues (sn.ins 1)) (gatherInput nv (sn.ins 1)) cfg.trigger
    &&& ~~~(clear ||| preset)
  let capture := gatherInput nv (sn.ins 0)
  let capture :=
    if hasScan then (capture &&& ~~~scanActive) ||| (gatherInput nv (sn.ins 4) &&& scanActive)
    else capture
  let capture :=
    if cfg.hasEnable && (sn.ins 2).isSome then
      let enableActive :=
        activeMask (gatherInput nv (sn.ins 2)) cfg.enablePolarity ||| scanActive
      (capture &&& enableActive) ||| (state &&& ~~~enableActive)
    else capture
  let value := applyValueMask state (clear &&& preset) cfg.clearPresetConflictValue
  let value := applyValueMask value (clear &&& ~~~preset) cfg.clearValue
  let value := applyValueMask value (preset &&& ~~~clear) cfg.presetValue
  (value &&& ~~~edge) ||| (capture &&& edge)

/-- `update_ff_states`. -/
def updateFfStates (nv prevValues : Words) (ffStates : Nat → Word) : Nat → Word :=
  cg.ffs.zipIdx.foldl (fun next p =>
    Function.update next p.2
      (nextFfState (cg.ffConfig p.1) p.1 nv prevValues (next p.2))) ffStates

/-- The parts of `SimState` that live across cycles. -/
structure State where
  values : Words := fun _ => 0#64
  prevValues : Words := fun _ => 0#64
  ffStates : Nat → Word

/-- Seed the flip-flop outputs and evaluate, as every half of a cycle does. -/
def settle (mc : Option ModeConfig) (ffStates : Nat → Word) (nv : Words) : Words :=
  evaluate cg batch mc (seedFfOutputs cg batch ffStates nv)

/-- One cycle.  `stimulus` are the control points `simulate_batch` with a
`ModeConfig` drives after the inputs. -/
def runCycle (mc : Option ModeConfig) (stimulus : List CompiledNetIndex) (st : State)
    (cycle : TestCycle) : State :=
  let active := if cycle.faultActive then batch else {}
  let nv := driveNets cg cycle.inputs cg.piNets st.values
  let nv := driveNets cg cycle.inputs stimulus nv
  let nv := injectAll active nv
  let nv := settle cg active mc st.ffStates nv
  let ffStates := updateFfStates cg nv st.prevValues st.ffStates
  let nv := settle cg active mc ffStates nv
  let nv := (List.range cycle.settleCycles).foldl (fun nv _ => settle cg active mc ffStates nv) nv
  { values := nv, prevValues := nv, ffStates := ffStates }

/-- `initial_ff_state`, in every lane. -/
def initialFfStates (idx : Nat) : Word :=
  if idx < cg.ffConfigs.length then broadcast (vec.initialFfState.getD idx false) else 0#64

/-- The net words of the sampled cycles. -/
def runCycles (cg : CompiledSimGraph) (batch : FaultBatch) (mc : Option ModeConfig)
    (stimulus : List CompiledNetIndex) : State → List TestCycle → List Words
  | _, [] => []
  | st, cycle :: cycles =>
    let st := runCycle cg batch mc stimulus st cycle
    if cycle.sampleOutputs then st.values :: runCycles cg batch mc stimulus st cycles
    else runCycles cg batch mc stimulus st cycles

/-- `mode_cfg`, for wrapper cells outside `FUNCTIONAL`. -/
def sequenceMode : Option ModeConfig :=
  if vec.testMode ≠ .FUNCTIONAL ∧ cg.wrapperCells ≠ [] then
    some (buildModeConfig cg vec.testMode)
  else none

/-- `detected |= word ^ golden` over the observation points of one sample. -/
def observe (nets : List CompiledNetIndex) (detected : Word) (nv : Words) : Word :=
  nets.foldl (fun d obs => d ||| differs (nv obs)) detected

/-- `simulate_batch_samples`. -/
def simulateBatchSamples : List Words :=
  runCycles cg batch (sequenceMode cg vec) [] { ffStates := initialFfStates cg vec } vec.cyclesFor

/-- `simulate_batch`: detection is folded over the sampled cycles. -/
def simulateBatch : Word :=
  (simulateBatchSamples cg vec batch).foldl (observe cg.observable) 0#64 &&& batch.mask

/-- `simulate_batch` with a `ModeConfig`. -/
def simulateBatchMode (mc : ModeConfig) : Word :=
  (runCycles cg batch (some mc) mc.stimulusNets { ffStates := initialFfStates cg vec }
    vec.cyclesFor).foldl (observe mc.observableNets) 0#64 &&& batch.mask

/-- The batch of one fault, in lane `1`. -/
def singleBatch (fault : CompactFault) : FaultBatch :=
  { faults := [{ fault with bit := 1, saMask := laneMask 1 }], mask := laneMask 1 }

/-- `simulate_single_fault` with a `ModeConfig`: one pass over the inputs of the
vector. -/
def simulateSingleFaultMode (fault : CompactFault) (mc : ModeConfig) : Bool :=
  if fault.exclusion ≠ .NONE then false
  else
    let batch := singleBatch fault
    let nv := driveNets cg vec.inputs cg.piNets fun _ => 0#64
    let nv := driveNets cg vec.inputs mc.stimulusNets nv
    let nv := injectFaults nv batch fault.netIndex
    let nv := evaluate cg batch (some mc) nv
    (observe mc.observableNets 0#64 nv &&& batch.mask) != 0#64

end BitParallel

end FaultFlow
