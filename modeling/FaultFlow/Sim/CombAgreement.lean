/-
# Combinational circuits: one pass against two

On a combinational circuit the golden reference evaluates once, from packed gate
inputs, and knows nothing of the modes of wrapper cells (`combPass`); the
bit-parallel engine runs the two halves of a cycle.  Where gates read what is
already written the second half changes nothing (`runCycle_values`), so the two
give one verdict (`simulateBatch_lane_iff_isDetected`).

In a mode other than `FUNCTIONAL` the golden `simulate_fault_free` still passes
the wrapper cells through, and the engines differ (`wrappedInput`); the
mode-aware overloads are compared in `ModeAgreement`.
-/

import FaultFlow.Sim.SequenceAgreement

namespace FaultFlow

open Lib GraphCompiler

namespace Golden

/-- A wrapper cell that passes its input on is a gate like the others. -/
theorem plainValue_eq_modeValue {sn : SimNode} (h : sn.IsWrapper → sn.GapFree) (x : Values) :
    plainValue x sn = modeValue (fun _ => .PASS) x sn := by
  have hbit : ∀ b : Bool, (broadcast b &&& 1#64 != 0#64) = b := by decide
  by_cases hw : sn.type = .WBR_IN ∨ sn.type = .WBR_OUT
  · rw [plainValue_eq, SimNode.evalScalar_inputNets (h hw), modeValue, if_pos hw]
    rcases hw with hw | hw
    all_goals
      rw [hw]
      simp [evalScalar, evalBitwise, pick, SimNode.slots, hbit]
  · rw [modeValue, if_neg hw]

/-- A pass leaves alone what no gate drives. -/
theorem evaluateCombinational_of_not_gateDriven {cg : CompiledSimGraph}
    (hpass : cg.passNodes = cg.nodes) (fault : Option CompactFault) (x : Values)
    {i : CompiledNetIndex} (hi : ¬ cg.GateDriven i) : evaluateCombinational cg x fault none i = x i := by
  rw [evaluateCombinational_eq_run, hpass]
  exact Assign.run_of_not_mem (mt mem_outs_nodeAssigns.1 hi) x

/-- A second pass changes nothing. -/
theorem evaluateCombinational_idem {cg : CompiledSimGraph} (hpass : cg.passNodes = cg.nodes)
    (h : cg.GatesInOrder) (fault : Option CompactFault) (x : Values) :
    evaluateCombinational cg (evaluateCombinational cg x fault none) fault none =
      evaluateCombinational cg x fault none :=
  evaluateCombinational_congr hpass h fault fun _ hi =>
    evaluateCombinational_of_not_gateDriven hpass fault x hi

end Golden

namespace CachedGraph

variable (g : CachedGraph)

theorem ffs_eq_nil (hcomb : g.cg.Combinational) : g.cg.ffs = [] := by
  refine List.eq_nil_iff_forall_not_mem.2 fun n hn => ?_
  obtain ⟨hn, htype⟩ := g.mem_ffs.1 hn
  exact hcomb n hn htype

theorem settle_eq (hcomb : g.cg.Combinational) (fault : Option CompactFault) (fs : ℕ → Bool)
    (x : Values) :
    Golden.settle g.cg fault none fs x = Golden.evaluateCombinational g.cg x fault none := by
  rw [Golden.settle, Golden.seedFfOutputs, g.ffs_eq_nil hcomb]
  rfl

/-- The single pass, from packed gate inputs, is the mode-free evaluation. -/
theorem combPass_eq (hgap : ∀ n ∈ g.cg.nodes, n.IsWrapper → n.GapFree) (vec : TestVector)
    (fault : Option CompactFault) :
    Golden.combPass g.cg vec fault = Golden.evaluateCombinational g.cg
      (Golden.driveNets g.cg vec.inputs fault g.cg.piNets fun _ => false) fault none := by
  rw [Golden.combPass, Golden.evaluateCombinational_eq_run,
    Golden.foldl_evalNode_eq_run fun sn hsn x =>
      Golden.plainValue_eq_modeValue (hgap sn (g.passNodes_eq ▸ hsn)) x]
  rfl

/-- The nets that neither a gate nor an input drives are still at `false`. -/
def IdleFalse (x : Values) : Prop := ∀ i, ¬ g.cg.GateDriven i → i ∉ g.cg.piNets → x i = false

/-- A single pass leaves them so. -/
theorem idleFalse_combPass (hgap : ∀ n ∈ g.cg.nodes, n.IsWrapper → n.GapFree) (vec : TestVector)
    (fault : Option CompactFault) : g.IdleFalse (Golden.combPass g.cg vec fault) := by
  intro i hgate hpi
  rw [g.combPass_eq hgap, Golden.evaluateCombinational_eq_run, Assign.run_of_not_mem,
    Golden.driveNets_apply, if_neg hpi]
  rw [Golden.mem_outs_nodeAssigns, g.passNodes_eq]
  exact hgate

/-- **A cycle of a combinational circuit is a single pass**, whatever the cycles
before it have left on the gates. -/
theorem runCycle_values_of_idle (hcomb : g.cg.Combinational) (hord : g.cg.GatesInOrder)
    (hgap : ∀ n ∈ g.cg.nodes, n.IsWrapper → n.GapFree) (fault : Option CompactFault)
    {st : Golden.State} (hst : g.IdleFalse st.values) (c : TestCycle) :
    (Golden.runCycle g.cg fault none st c).values =
      Golden.combPass g.cg { inputs := c.inputs } (if c.faultActive then fault else none) := by
  have hfix : ∀ (l : List ℕ) (fault : Option CompactFault) (fs : ℕ → Bool) (x : Values),
      l.foldl (fun v _ => Golden.settle g.cg fault none fs v)
        (Golden.evaluateCombinational g.cg x fault none) =
      Golden.evaluateCombinational g.cg x fault none := fun l fault fs x =>
    List.foldl_fixed' (fun _ => by
      rw [g.settle_eq hcomb, Golden.evaluateCombinational_idem g.passNodes_eq hord]) l
  rw [Golden.runCycle, g.combPass_eq hgap]
  simp only
  rw [g.settle_eq hcomb, g.settle_eq hcomb, Golden.evaluateCombinational_idem g.passNodes_eq hord,
    hfix]
  refine Golden.evaluateCombinational_congr g.passNodes_eq hord _ fun i hi => ?_
  rw [Golden.broadcastInputs, Golden.driveNets_apply, Golden.driveNets_apply]
  split
  · rfl
  · exact hst i hi ‹_›

theorem runCycle_values (hcomb : g.cg.Combinational) (hord : g.cg.GatesInOrder)
    (hgap : ∀ n ∈ g.cg.nodes, n.IsWrapper → n.GapFree) (fault : Option CompactFault)
    (fs : ℕ → Bool) (c : TestCycle) :
    (Golden.runCycle g.cg fault none { ffStates := fs } c).values =
      Golden.combPass g.cg { inputs := c.inputs } (if c.faultActive then fault else none) :=
  g.runCycle_values_of_idle hcomb hord hgap fault (fun _ _ _ => rfl) c

/-- The verdict of `simulate_fault_free` or `simulate_with_fault` on one sampled
cycle is the single pass over its inputs. -/
theorem simulate_single_cycle (hcomb : g.cg.Combinational) (hord : g.cg.GatesInOrder)
    (hgap : ∀ n ∈ g.cg.nodes, n.IsWrapper → n.GapFree) {vec : TestVector}
    (hmode : Golden.sequenceMode g.cg vec = none) {c : TestCycle} (hvec : vec.cyclesFor = [c])
    (hc : c.sampleOutputs = true) (fault : Option CompactFault) :
    (if g.cg.ffConfigs ≠ [] ∨ vec.isSequential = true then
      (((Golden.runCycles g.cg fault (Golden.sequenceMode g.cg vec)
        { ffStates := Golden.initialFfStates g.cg vec } vec.cyclesFor).map
          (Golden.snapshot g.cg)).getLast?).getD (Golden.snapshot g.cg (Golden.combPass g.cg vec fault))
      else Golden.snapshot g.cg (Golden.combPass g.cg vec fault)) =
    Golden.snapshot g.cg
      (Golden.combPass g.cg { inputs := c.inputs } (if c.faultActive then fault else none)) := by
  split
  · rw [hvec, hmode, Golden.runCycles, if_pos hc, Golden.runCycles,
      g.runCycle_values hcomb hord hgap]
    rfl
  · rename_i hcase
    have hnil : vec.cycles = [] := by
      simpa [TestVector.isSequential] using (not_or.1 hcase).2
    rw [TestVector.cyclesFor, hnil] at hvec
    obtain rfl := (List.cons.inj hvec).1
    rfl

end CachedGraph

section SingleCycle

variable {g : CachedGraph} (hcomb : g.cg.Combinational) (htop : g.cg.Topological)
  (hord : g.cg.GatesInOrder) (hgap : ∀ n ∈ g.cg.nodes, ¬ n.IsSource → n.GapFree)
  {vec : TestVector} (hmode : Golden.sequenceMode g.cg vec = none) {c : TestCycle}
  (hvec : vec.cyclesFor = [c]) (hc : c.sampleOutputs = true) {b : FaultBatch} (hb : b.WellFormed)

include hgap in
theorem wrapper_gapFree : ∀ n ∈ g.cg.nodes, n.IsWrapper → n.GapFree := by
  rintro n hn hw
  refine hgap n hn ?_
  rcases hw with hw | hw <;> simp [SimNode.IsSource, hw]

include hcomb htop hord hgap hmode hvec hc hb in
/-- A lane of the one sample is the single pass with the lane's fault. -/
theorem samples_eq_combPass {i : ℕ} (hi : i < 64)
    (hdriven : ∀ f, b.laneFault i = some f → g.cg.Driven f.netIndex) :
    ((BitParallel.simulateBatchSamples g.cg vec b).map fun nv n => lane i (nv n)) =
      [Golden.combPass g.cg { inputs := c.inputs } (if c.faultActive then b.laneFault i else none)] := by
  have hgates : BitParallel.GatesGapFree g.cg := fun n hn hsrc =>
    .inr (hgap n (g.passNodes_eq ▸ hn) hsrc)
  rw [← g.samples_lane hgates hmode hb hi fun f hf =>
      ⟨hdriven f hf, g.piNets_or_readsInOrder htop (hdriven f hf)⟩,
    hvec, hmode, Golden.runCycles, if_pos hc, Golden.runCycles,
    g.runCycle_values hcomb hord (wrapper_gapFree hgap)]

include hcomb htop hord hgap hmode hvec hc hb in
/-- Lane `0` of the one sample is the fault-free pass. -/
theorem samples_zero : ((BitParallel.simulateBatchSamples g.cg vec b).map fun nv n => lane 0 (nv n)) =
    [Golden.combPass g.cg { inputs := c.inputs } none] := by
  have hnone : ∀ f, b.laneFault 0 = some f → g.cg.Driven f.netIndex := by
    simp [hb.laneFault_zero]
  rw [samples_eq_combPass hcomb htop hord hgap hmode hvec hc hb (by omega) hnone,
    hb.laneFault_zero, ite_self]

include hcomb htop hord hgap hmode hvec hc hb in
/-- The bit of a lane compares the fault-free and the faulty pass. -/
theorem lane_simulateBatch_eq_combPass {i : ℕ} (hi : i < 64) {f : CompactFault}
    (hf : b.InLane i f) (hdriven : g.cg.Driven f.netIndex) :
    lane i (BitParallel.simulateBatch g.cg vec b) = g.cg.observable.any fun o =>
      Golden.combPass g.cg { inputs := c.inputs } none o !=
        Golden.combPass g.cg { inputs := c.inputs } (if c.faultActive then some f else none) o := by
  have hlf := hb.laneFault_eq hf
  have hfaulty := samples_eq_combPass hcomb htop hord hgap hmode hvec hc hb hi fun f' hf' => by
    rwa [← Option.some.inj (hlf.symm.trans hf')]
  have hgood := samples_zero hcomb htop hord hgap hmode hvec hc hb
  obtain ⟨nv, hnv, hvalue⟩ := List.map_eq_singleton_iff.1 hfaulty
  rw [hnv, List.map_singleton, List.singleton_inj] at hgood
  rw [hlf] at hvalue
  rw [g.lane_simulateBatch hb vec hi hf, hnv, List.any_cons, List.any_nil, Bool.or_false,
    ← hvalue, ← hgood]

end SingleCycle

/-- **On a combinational circuit the bit of a lane is the golden verdict of its
fault.**  Lane `0` of every net is the fault-free value, and a lane does not
depend on the rest of the batch. -/
theorem simulateBatch_lane_iff_isDetected (g : CachedGraph) (hcomb : g.cg.Combinational)
    (hac : g.ng.Acyclic) (hforks : ForksPlaced g.low.nodes)
    (hgap : ∀ n ∈ g.cg.nodes, ¬ n.IsSource → n.GapFree) (vec : TestVector) (c : TestCycle)
    (hvec : vec.cyclesFor = [c]) (hc : c.sampleOutputs = true)
    (hmode : vec.testMode = .FUNCTIONAL ∨ g.cg.wrapperCells = []) (b : FaultBatch)
    (hb : b.WellFormed) (i : ℕ) (hi : i < 64) (f : CompactFault) (hf : b.InLane i f)
    (hdriven : g.cg.Driven f.netIndex) :
    (lane i (BitParallel.simulateBatch g.cg vec b) = true ↔
      Golden.isDetected g.cg (Golden.simulateFaultFree g.cg vec)
        (Golden.simulateWithFault g.cg vec f) = true) ∧
      (∀ nv ∈ BitParallel.simulateBatchSamples g.cg vec b, ∀ n,
        lane 0 (nv n) = Golden.combPass g.cg { inputs := c.inputs } none n) ∧
      ∀ b' : FaultBatch, b'.WellFormed → b'.InLane i f →
        lane i (BitParallel.simulateBatch g.cg vec b') =
          lane i (BitParallel.simulateBatch g.cg vec b) := by
  have hnone : Golden.sequenceMode g.cg vec = none := by
    rcases hmode with hmode | hmode <;> simp [Golden.sequenceMode, hmode]
  have hord := g.gatesInOrder_of_combinational hac hcomb hforks
  have htop := g.topological_of_forksPlaced hac hforks
  have hgolden := g.simulate_single_cycle hcomb hord (wrapper_gapFree hgap) hnone hvec hc
  have hfree : Golden.simulateFaultFree g.cg vec =
      Golden.snapshot g.cg (Golden.combPass g.cg { inputs := c.inputs } none) := by
    have h := hgolden none
    rwa [ite_self] at h
  have hfaulty : Golden.simulateWithFault g.cg vec f = Golden.snapshot g.cg
      (Golden.combPass g.cg { inputs := c.inputs } (if c.faultActive then some f else none)) := by
    have hexcl := hb.not_excluded f hf.1
    rw [← hgolden (some f), Golden.simulateWithFault, if_neg (not_not.2 hexcl),
      Golden.simulateSequenceWithFault_eq g.cg vec hexcl]
  have hlane := fun (b : FaultBatch) (hb : b.WellFormed) (hf : b.InLane i f) =>
    lane_simulateBatch_eq_combPass hcomb htop hord hgap hnone hvec hc hb hi hf hdriven
  refine ⟨?_, fun nv hnv n => ?_, fun b' hb' hf' => (hlane b' hb' hf').trans (hlane b hb hf).symm⟩
  · rw [hlane b hb hf, hfree, hfaulty, g.isDetected_snapshot]
  · have hzero := samples_zero hcomb htop hord hgap hnone hvec hc hb
    have hmem := List.mem_map_of_mem (f := fun nv n => lane 0 (nv n)) hnv
    rw [hzero, List.mem_singleton] at hmem
    exact congrFun hmem n

/-- An AND gate with a shared input. -/
def andFork : CachedGraph :=
  .load (.ofCells [("a", 2), ("b", 3)] [("y", 5), ("z", 4)]
      [("g", .ofPins "AND2" [("A", 2), ("B", 3), ("Y", 4)]),
       ("h", .ofPins "AND2" [("A", 2), ("B", 4), ("Y", 5)])])
    smallCells "fail" ∅ (by decide +kernel) (by decide +kernel)

/-- Both inputs high. -/
def bothHigh : TestVector := { inputs := Std.TreeMap.ofList [((2 : YosysNetID), true), (3, true)] }

/-- The shared input stuck at 0. -/
def sharedInputFault : CompactFault := { netIndex := 0, saMask := laneMask 1 }

theorem andFork_lane_iff_isDetected :
    lane 1 (BitParallel.simulateBatch andFork.cg bothHigh
      (BitParallel.singleBatch sharedInputFault)) = true ↔
      Golden.isDetected andFork.cg (Golden.simulateFaultFree andFork.cg bothHigh)
        (Golden.simulateWithFault andFork.cg bothHigh sharedInputFault) = true :=
  (simulateBatch_lane_iff_isDetected andFork (by decide +kernel)
    (andFork.levelized.acyclic_iff.2 (by decide +kernel)) (by decide +kernel) (by decide +kernel)
    bothHigh { inputs := bothHigh.inputs } rfl rfl (.inl rfl)
    (BitParallel.singleBatch sharedInputFault) (singleBatch_wellFormed rfl) 1 (by omega)
    sharedInputFault (singleBatch_inLane sharedInputFault) (by decide +kernel)).1

/-- A primary input behind a transparent wrapper cell. -/
def wrappedInput : CachedGraph :=
  .load (.ofCells [("a", 2)] [("y", 4)]
      [("w", .ofPins "WBRIN" [("FROM_SYS", 2), ("TO_CORE", 3)]),
       ("g", .ofPins "BUF" [("A", 3), ("Y", 4)])])
    smallCells "fail" ∅ (by decide +kernel) (by decide +kernel)

/-- The input high, in `INTEST`. -/
def intestHigh : TestVector :=
  { inputs := Std.TreeMap.ofList [((2 : YosysNetID), true)], testMode := .INTEST }

/-- In `INTEST` the bit-parallel engine cuts the core off the input; the golden
simulation passes the input through and sees the fault. -/
theorem wrappedInput_lane_ne : wrappedInput.cg.Combinational ∧ wrappedInput.ng.Acyclic ∧
    wrappedInput.cg.Driven sharedInputFault.netIndex ∧
    (BitParallel.singleBatch sharedInputFault).WellFormed ∧
    (BitParallel.singleBatch sharedInputFault).InLane 1 sharedInputFault ∧
    lane 1 (BitParallel.simulateBatch wrappedInput.cg intestHigh
      (BitParallel.singleBatch sharedInputFault)) = false ∧
    Golden.isDetected wrappedInput.cg (Golden.simulateFaultFree wrappedInput.cg intestHigh)
      (Golden.simulateWithFault wrappedInput.cg intestHigh sharedInputFault) = true :=
  ⟨by decide +kernel, wrappedInput.levelized.acyclic_iff.2 (by decide +kernel), by decide +kernel,
    singleBatch_wellFormed rfl, singleBatch_inLane sharedInputFault, by decide +kernel,
    by decide +kernel⟩

end FaultFlow
