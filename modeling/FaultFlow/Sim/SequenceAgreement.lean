/-
# The bit-parallel engine against the golden reference, over whole runs

`simulateBatch_lane_eq`: on a graph of the front end, a lane of a batch is the
golden run with the lane's fault, sample by sample, and the bit of the lane in
the detection mask is the golden verdict.  It needs that the used slots of a
gate come first, since the engines number a gate's inputs differently where they
do not, and that the faulty net is an input or is read only after the pass has
written it (`ReadsInOrder`), since the bit-parallel engine forces it earlier.

`sharedData` fails the second: a gate that drives the data pins of two
flip-flops.  Its branches stand before the gate, so in the first half of a cycle
the flip-flops see the forced value in the one engine and a stale value in the
other.
-/

import FaultFlow.Sim.LaneAgreement
import FaultFlow.Sim.Settling

namespace FaultFlow

open Lib GraphCompiler

/-- The lane of a fault is in the mask. -/
theorem FaultBatch.lane_mask {b : FaultBatch} (hb : b.WellFormed) {i : ℕ} (hi : i < 64)
    {f : CompactFault} (h : b.InLane i f) : lane i b.mask = true := by
  have hfold : ∀ (fs : List CompactFault) (m : Word),
      lane i (fs.foldl (fun m f => m ||| f.saMask) m) = (lane i m || fs.any fun f => lane i f.saMask) := by
    intro fs
    induction fs with
    | nil => simp
    | cons f fs ih =>
      intro m
      rw [List.foldl_cons, ih, lane_or, List.any_cons, Bool.or_assoc]
  rw [hb.mask_eq, hfold, lane_zero, Bool.false_or, List.any_eq_true]
  exact ⟨f, h.1, by simp [h.2, lane_laneMask hi]⟩

namespace BitParallel

theorem lane_foldl_observe {i : ℕ} (hi : i < 64) (nets : List CompiledNetIndex)
    (samples : List Words) (d : Word) :
    lane i (samples.foldl (observe nets) d) =
      (lane i d || samples.any fun nv => nets.any fun o => lane 0 (nv o) != lane i (nv o)) := by
  have hobserve : ∀ (nets : List CompiledNetIndex) (d : Word) (nv : Words),
      lane i (observe nets d nv) = (lane i d || nets.any fun o => lane 0 (nv o) != lane i (nv o)) := by
    intro nets
    induction nets with
    | nil => simp [observe]
    | cons o nets ih =>
      intro d nv
      have hcons : observe (o :: nets) d nv = observe nets (d ||| differs (nv o)) nv := rfl
      rw [hcons, ih, lane_or, lane_differs hi, List.any_cons, Bool.or_assoc]
      congr 2
      cases lane i (nv o) <;> cases lane 0 (nv o) <;> rfl
  induction samples generalizing d with
  | nil => simp
  | cons nv samples ih => rw [List.foldl_cons, ih, hobserve, List.any_cons, Bool.or_assoc]

end BitParallel

namespace Golden

theorem simulateSequenceFaultFree_eq (cg : CompiledSimGraph) (vec : TestVector) :
    simulateSequenceFaultFree cg vec =
      (runCycles cg none (sequenceMode cg vec)
        { ffStates := initialFfStates cg vec } vec.cyclesFor).map (snapshot cg) := rfl

theorem simulateSequenceWithFault_eq (cg : CompiledSimGraph) (vec : TestVector) {f : CompactFault}
    (hf : f.exclusion = .NONE) :
    simulateSequenceWithFault cg vec f =
      (runCycles cg (some f) (sequenceMode cg vec)
        { ffStates := initialFfStates cg vec } vec.cyclesFor).map (snapshot cg) := by
  rw [simulateSequenceWithFault, runSequence, if_pos hf]

end Golden

namespace CachedGraph

variable (g : CachedGraph)

/-- A net that is read in order settles in order. -/
theorem settlesInOrder {i : CompiledNetIndex} (hord : g.cg.ReadsInOrder i)
    (hd : ∃ w ∈ g.cg.nodes, w.out = i ∧ w.type ≠ .INPUT) :
    BitParallel.SettlesInOrder g.cg none i := by
  have hseed : ∀ fault fs, i ∈ Assign.outs (Golden.seedAssigns g.cg fault fs) ↔
      ∃ w ∈ g.cg.nodes, w.type = .DFF ∧ w.out = i := by
    intro fault fs
    have houts : Assign.outs (Golden.seedAssigns g.cg fault fs) = g.cg.ffs.map SimNode.out := by
      rw [← List.zipIdx_map_fst 0 g.cg.ffs, List.map_map, Assign.outs, Golden.seedAssigns,
        List.map_map]
      rfl
    rw [houts, List.mem_map]
    simp only [g.mem_ffs, and_assoc]
  intro fault fs
  have hnodes : ∀ w ∈ g.cg.nodes, ¬ w.IsSource → w.out = i →
      i ∈ Assign.outs (Golden.nodeAssigns (Golden.actionOf none) fault g.cg.passNodes) := by
    intro w hw hsrc hout
    rw [g.passNodes_eq]
    exact Golden.mem_outs_nodeAssigns.2 ⟨w, hw, hsrc, hout⟩
  constructor
  · refine Assign.fresh_append.2 ⟨Assign.fresh_of_reads_nil fun a ha => ?_, ?_⟩
    · obtain ⟨p, -, rfl⟩ := List.mem_map.1 ha
      rfl
    · refine Assign.fresh_iff.2 fun pre a post heq j hj hD => ?_
      obtain ⟨rfl : j = i, hnot⟩ := hD
      rw [g.passNodes_eq] at heq
      obtain ⟨k, n, hn, hsrc, rfl, hpre⟩ := Golden.exists_of_nodeAssigns_eq heq
      have hreads : j ∈ n.inputNets := by
        rw [← Golden.nodeReads_pass n]
        exact hj
      rcases hord (n, k) (List.mem_zipIdx_iff_getElem?.2 hn) hsrc hreads with hff | ⟨w, hw, hgate, rfl⟩
      · exact absurd ((hseed fault fs).2 hff) hnot
      · exact hpre w hw hgate
  · obtain ⟨w, hw, hout, hne⟩ := hd
    rw [Golden.settleAssigns, Assign.outs, List.map_append, List.mem_append]
    by_cases hsrc : w.IsSource
    · exact .inl ((hseed fault fs).2 ⟨w, hw, hsrc.resolve_left hne, hout⟩)
    · exact .inr (hnodes w hw hsrc hout)

theorem snapshot_yosysOf {o : CompiledNetIndex} (ho : g.IsStem o) (values : Values) :
    Golden.snapshot g.cg values (g.cg.yosysOf o) = some (values o) := by
  rw [Golden.snapshot, g.yosysToCompiled_yosysOf ho, Option.map_some]

/-- Detection compares the values of the observation points. -/
theorem isDetected_snapshot (x y : Values) :
    Golden.isDetected g.cg (Golden.snapshot g.cg x) (Golden.snapshot g.cg y) =
      g.cg.observable.any fun o => x o != y o := by
  rw [Golden.isDetected, Bool.eq_iff_iff, List.any_eq_true, List.any_eq_true]
  refine exists_congr fun o => and_congr_right fun ho => ?_
  rw [g.snapshot_yosysOf (g.isStem_of_observable ho), g.snapshot_yosysOf (g.isStem_of_observable ho)]
  simp

/-- The same over the samples of a run. -/
theorem isSequenceDetected_samples (samples : List Words) (i : ℕ) :
    Golden.isSequenceDetected g.cg
        (samples.map fun nv => Golden.snapshot g.cg fun n => lane 0 (nv n))
        (samples.map fun nv => Golden.snapshot g.cg fun n => lane i (nv n)) =
      samples.any fun nv => g.cg.observable.any fun o => lane 0 (nv o) != lane i (nv o) := by
  rw [Golden.isSequenceDetected, List.zip_map', List.any_map]
  congr 1
  funext nv
  exact g.isDetected_snapshot _ _

/-- **The golden run of the fault in a lane, none in lane `0`, is the lane.** -/
theorem samples_lane {b : FaultBatch} (hgap : BitParallel.GatesGapFree g.cg) {vec : TestVector}
    (hmode : Golden.sequenceMode g.cg vec = none) (hb : b.WellFormed) {i : ℕ} (hi : i < 64)
    (hord : ∀ f, b.laneFault i = some f →
      g.cg.Driven f.netIndex ∧ (f.netIndex ∈ g.cg.piNets ∨ g.cg.ReadsInOrder f.netIndex)) :
    Golden.runCycles g.cg (b.laneFault i) (Golden.sequenceMode g.cg vec)
        { ffStates := Golden.initialFfStates g.cg vec } vec.cyclesFor =
      (BitParallel.simulateBatchSamples g.cg vec b).map fun nv n => lane i (nv n) := by
  have hmode' : BitParallel.sequenceMode g.cg vec = none := hmode
  rw [BitParallel.simulateBatchSamples, hmode, hmode',
    BitParallel.runCycles_agree hgap hb hi ?_ (BitParallel.laneState_init hi vec)]
  intro f hf
  obtain ⟨⟨w, hw, hout⟩, hpi | hreads⟩ := hord f hf
  · exact .inl hpi
  · by_cases htype : w.type = .INPUT
    · exact .inl (hout ▸ g.mem_piNets_of_input hw htype)
    · exact .inr (g.settlesInOrder hreads ⟨w, hw, hout, htype⟩)

/-- The bit of a lane: in some sample an observation point differs from lane `0`. -/
theorem lane_simulateBatch {b : FaultBatch} (hb : b.WellFormed) (vec : TestVector) {i : ℕ}
    (hi : i < 64) {f : CompactFault} (hf : b.InLane i f) :
    lane i (BitParallel.simulateBatch g.cg vec b) =
      (BitParallel.simulateBatchSamples g.cg vec b).any fun nv =>
        g.cg.observable.any fun o => lane 0 (nv o) != lane i (nv o) := by
  rw [BitParallel.simulateBatch, lane_and, FaultBatch.lane_mask hb hi hf, Bool.and_true,
    BitParallel.lane_foldl_observe hi, lane_zero, Bool.false_or]

end CachedGraph

/-- **A lane of a batch is the golden run with the lane's fault**, sample by
sample on every named net, and its bit of the mask is the golden verdict. -/
theorem simulateBatch_lane_eq (g : CachedGraph) (hgap : BitParallel.GatesGapFree g.cg)
    (vec : TestVector) (hmode : vec.testMode = .FUNCTIONAL) (b : FaultBatch) (hb : b.WellFormed)
    (i : ℕ) (hi : i < 64) (f : CompactFault) (hf : b.InLane i f) (hdriven : g.cg.Driven f.netIndex)
    (hord : f.netIndex ∈ g.cg.piNets ∨ g.cg.ReadsInOrder f.netIndex) :
    Golden.simulateSequenceWithFault g.cg vec f =
        ((BitParallel.simulateBatchSamples g.cg vec b).map fun nv =>
          Golden.snapshot g.cg fun n => lane i (nv n)) ∧
      lane i (BitParallel.simulateBatch g.cg vec b) =
        Golden.isSequenceDetected g.cg (Golden.simulateSequenceFaultFree g.cg vec)
          (Golden.simulateSequenceWithFault g.cg vec f) := by
  have hnone : Golden.sequenceMode g.cg vec = none := by simp [Golden.sequenceMode, hmode]
  have hlf := hb.laneFault_eq hf
  have hfaulty := g.samples_lane hgap hnone hb hi fun f' hf' => by
    obtain rfl : f = f' := Option.some.inj (hlf.symm.trans hf')
    exact ⟨hdriven, hord⟩
  have hgood := g.samples_lane hgap hnone hb (i := 0) (by omega) fun f' hf' => by
    rw [hb.laneFault_zero] at hf'
    cases hf'
  rw [hlf] at hfaulty
  rw [hb.laneFault_zero] at hgood
  have hfaulty' : Golden.simulateSequenceWithFault g.cg vec f =
      (BitParallel.simulateBatchSamples g.cg vec b).map fun nv =>
        Golden.snapshot g.cg fun n => lane i (nv n) := by
    rw [Golden.simulateSequenceWithFault_eq g.cg vec (hb.not_excluded f hf.1), hfaulty, List.map_map]
    rfl
  have hgood' : Golden.simulateSequenceFaultFree g.cg vec =
      (BitParallel.simulateBatchSamples g.cg vec b).map fun nv =>
        Golden.snapshot g.cg fun n => lane 0 (nv n) := by
    rw [Golden.simulateSequenceFaultFree_eq, hgood, List.map_map]
    rfl
  refine ⟨hfaulty', ?_⟩
  rw [hgood', hfaulty', g.isSequenceDetected_samples, g.lane_simulateBatch hb vec hi hf]

/-- The batch of one fault is well formed. -/
theorem singleBatch_wellFormed {f : CompactFault} (hf : f.exclusion = .NONE) :
    (BitParallel.singleBatch f).WellFormed := by
  refine ⟨by simp [BitParallel.singleBatch], by simpa [BitParallel.singleBatch] using hf, ?_,
    by simp [BitParallel.singleBatch], by simp [BitParallel.singleBatch]⟩
  intro f' hf'
  obtain rfl := List.mem_singleton.1 hf'
  exact ⟨1, le_rfl, by omega, rfl⟩

theorem singleBatch_inLane (f : CompactFault) :
    (BitParallel.singleBatch f).InLane 1 { f with bit := 1, saMask := laneMask 1 } :=
  ⟨by simp [BitParallel.singleBatch], rfl⟩

/-- The inverter's output stuck at 1, in lane `1`. -/
def inverterFault : CompactFault := { netIndex := 2, type := .SA1, saMask := laneMask 1 }

/-- A clock edge with the data input high. -/
def clockEdge : TestVector := { inputs := Std.TreeMap.ofList [((2 : YosysNetID), true), (3, true)] }

/-- The hypotheses hold of the inverter in front of a single flip-flop. -/
theorem twoFlops_lane_eq :
    lane 1 (BitParallel.simulateBatch twoFlops.cg clockEdge (BitParallel.singleBatch inverterFault)) =
      Golden.isSequenceDetected twoFlops.cg (Golden.simulateSequenceFaultFree twoFlops.cg clockEdge)
        (Golden.simulateSequenceWithFault twoFlops.cg clockEdge inverterFault) :=
  (simulateBatch_lane_eq twoFlops (by decide +kernel) clockEdge rfl
    (BitParallel.singleBatch inverterFault) (singleBatch_wellFormed rfl) 1 (by omega) inverterFault
    (singleBatch_inLane inverterFault) (by decide +kernel) (.inr (by decide +kernel))).2

/-- An inverter that drives the data pins of two flip-flops. -/
def sharedData : CachedGraph :=
  .load (.ofCells [("d", 2), ("ck", 3)] [("q", 5), ("r", 6)]
      [("g", .ofPins "INV" [("A", 2), ("Y", 4)]),
       ("f1", .ofPins "DFF" [("D", 4), ("CK", 3), ("Q", 5)]),
       ("f2", .ofPins "DFF" [("D", 4), ("CK", 3), ("Q", 6)])])
    smallCells "fail" ∅ (by decide +kernel) (by decide +kernel)

/-- At the clock edge the flip-flops capture the forced value in the bit-parallel
engine, which reports the fault, and the stale value in the golden reference,
which does not. -/
theorem sharedData_lane_ne : sharedData.cg.Driven inverterFault.netIndex ∧
    (BitParallel.singleBatch inverterFault).WellFormed ∧
    (BitParallel.singleBatch inverterFault).InLane 1 inverterFault ∧
    lane 1 (BitParallel.simulateBatch sharedData.cg clockEdge
      (BitParallel.singleBatch inverterFault)) = true ∧
    Golden.isSequenceDetected sharedData.cg
      (Golden.simulateSequenceFaultFree sharedData.cg clockEdge)
      (Golden.simulateSequenceWithFault sharedData.cg clockEdge inverterFault) = false :=
  ⟨by decide +kernel, singleBatch_wellFormed rfl, singleBatch_inLane inverterFault,
    by decide +kernel, by decide +kernel⟩

end FaultFlow
