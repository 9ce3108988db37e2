/-
# Transition faults in the bit-parallel engine

`simulate_transition_single_fault` and `simulate_transition_batch` of
`src/core/sim/engine/bit_parallel_sim.cpp`.  The first asks that the good machine leaves the
fault's value at the launch and has the other value at the capture, as the golden reference does;
the second asks about the launch only.

With one driver for every net, a fault that is seen at the capture is seen because the good
machine has the other value at the fault net (`Assign.TestPair.site_differs`), so the three
verdicts agree (`simulateTransitionBatch_lane_eq`).
-/

import FaultFlow.Atpg.TransitionVerdict
import FaultFlow.Sim.LaneLocality

namespace FaultFlow

open Lib
open GraphCompiler (ForksPlaced)

namespace BitParallel

/-- `simulate_transition_single_fault`. -/
def simulateTransitionSingleFault (cg : CompiledSimGraph) (v1 v2 : TestVector)
    (fault : CompactFault) : Bool :=
  if fault.exclusion ≠ .NONE then false
  else
    let batch := singleBatch fault
    match simulateBatchSamples cg (TestVector.launchCapture v1 v2) batch with
    | init :: capture :: _ =>
      lane 0 (init fault.netIndex) == fault.value &&
        lane 0 (capture fault.netIndex) == !fault.value &&
        cg.observable.any fun obs => differs (capture obs) &&& batch.mask != 0#64
    | _ => false

/-- The good machine has the fault's own value at the launch. -/
def qualifies (init : Words) (f : CompactFault) : Bool :=
  lane 0 (init f.netIndex) == (f.type == .SA1)

/-- The lanes whose faults qualify. -/
def qualifiedLanes (init : Words) (batch : FaultBatch) : Word :=
  batch.faults.foldl
    (fun qualified f => if qualifies init f then qualified ||| f.saMask else qualified) 0#64

/-- `simulate_transition_batch`. -/
def simulateTransitionBatch (cg : CompiledSimGraph) (v1 v2 : TestVector) (batch : FaultBatch) :
    Word :=
  match simulateBatchSamples cg (TestVector.launchCapture v1 v2) batch with
  | init :: capture :: _ =>
    observe cg.observable 0#64 capture &&& batch.mask &&& qualifiedLanes init batch
  | _ => 0#64

theorem qualifies_eq (init : Words) (f : CompactFault) :
    qualifies init f = (lane 0 (init f.netIndex) == f.value) := by
  rw [qualifies, CompactFault.value]
  cases f.type <;> rfl

/-- A lane qualifies by its own fault. -/
theorem lane_qualifiedLanes {b : FaultBatch} (hb : b.WellFormed) {i : ℕ} (hi : i < 64)
    {f : CompactFault} (hf : b.InLane i f) (init : Words) :
    lane i (qualifiedLanes init b) = qualifies init f := by
  have hfold : ∀ (l : List CompactFault) (w : Word), (∀ f' ∈ l, f' ∈ b.faults) →
      lane i (l.foldl (fun qualified f => if qualifies init f then qualified ||| f.saMask
        else qualified) w) =
      (lane i w || l.any fun f' => f'.saMask == laneMask i && qualifies init f') := by
    intro l
    induction l with
    | nil => simp
    | cons f' l ih =>
      intro w hl
      obtain ⟨j, -, hj, hmask⟩ := hb.lane f' (hl f' List.mem_cons_self)
      have hlane : lane i f'.saMask = (f'.saMask == laneMask i) := by
        rw [hmask, lane_laneMask hi, Bool.eq_iff_iff, decide_eq_true_eq, beq_iff_eq]
        exact ⟨fun h => by rw [h], fun h => (FaultBatch.laneMask_injective hj h).symm⟩
      rw [List.foldl_cons, ih _ fun f'' hf'' => hl f'' (List.mem_cons_of_mem _ hf''), List.any_cons]
      cases qualifies init f'
      · rw [if_neg Bool.false_ne_true, Bool.and_false, Bool.false_or]
      · rw [if_pos rfl, lane_or, hlane, Bool.and_true, Bool.or_assoc]
  rw [qualifiedLanes, hfold b.faults 0#64 fun _ h => h, lane_zero, Bool.false_or, Bool.eq_iff_iff,
    List.any_eq_true]
  constructor
  · rintro ⟨f', hf', h⟩
    rw [Bool.and_eq_true, beq_iff_eq] at h
    -- no other fault sits in the lane
    have hsame := hb.laneFault_eq ⟨hf', h.1⟩
    rw [hb.laneFault_eq hf] at hsame
    cases hsame
    exact h.2
  · intro h
    exact ⟨f, hf.1, by rw [hf.2, beq_self_eq_true, Bool.true_and, h]⟩

end BitParallel

section Agreement

variable {g : CachedGraph} (h : g.Equational) (hforks : ForksPlaced g.low.nodes)
  (hgap : ∀ n ∈ g.cg.nodes, ¬ n.IsSource → n.GapFree) {b : FaultBatch} (hb : b.WellFormed)
  {i : ℕ} (hi : i < 64) {f : CompactFault} (hf : b.InLane i f) (hdriven : g.cg.Driven f.netIndex)
  (v1 v2 : TestVector)

include h hforks hgap hb in
/-- The two samples, in a lane. -/
theorem samples_launchCapture {j : ℕ} (hj : j < 64)
    (hfault : ∀ f, b.laneFault j = some f → g.cg.Driven f.netIndex) :
    ((BitParallel.simulateBatchSamples g.cg (TestVector.launchCapture v1 v2) b).map
        fun nv n => lane j (nv n)) =
      [Golden.combPass g.cg { inputs := v1.inputs } none,
        Golden.combPass g.cg { inputs := v2.inputs } (b.laneFault j)] := by
  have hgates : BitParallel.GatesGapFree g.cg := fun n hn hsrc =>
    .inr (hgap n (g.passNodes_eq ▸ hn) hsrc)
  have hmode : Golden.sequenceMode g.cg (TestVector.launchCapture v1 v2) = none := by
    simp [Golden.sequenceMode, TestVector.launchCapture]
  have htop := g.topological_of_forksPlaced h.acyclic hforks
  rw [← g.samples_lane hgates hmode hb hj fun f hf =>
      ⟨hfault f hf, g.piNets_or_readsInOrder htop (hfault f hf)⟩, hmode,
    g.runCycles_launchCapture h.comb (g.gatesInOrder_of_combinational h.acyclic h.comb hforks)
      (wrapper_gapFree hgap)]

include h hforks hgap hb hi hf hdriven in
/-- The two samples, in lane `0` and in the lane of a fault. -/
theorem exists_samples : ∃ init capture,
    BitParallel.simulateBatchSamples g.cg (TestVector.launchCapture v1 v2) b = [init, capture] ∧
      (∀ n, lane 0 (init n) = Golden.combPass g.cg { inputs := v1.inputs } none n) ∧
      (∀ n, lane 0 (capture n) = Golden.combPass g.cg { inputs := v2.inputs } none n) ∧
      ∀ n, lane i (capture n) = Golden.combPass g.cg { inputs := v2.inputs } (some f) n := by
  have hgood := samples_launchCapture h hforks hgap hb v1 v2 (j := 0) (by omega)
    (by simp [hb.laneFault_zero])
  have hfaulty := samples_launchCapture h hforks hgap hb v1 v2 hi fun f' hf' => by
    rwa [← Option.some.inj ((hb.laneFault_eq hf).symm.trans hf')]
  rw [hb.laneFault_zero] at hgood
  rw [hb.laneFault_eq hf] at hfaulty
  generalize BitParallel.simulateBatchSamples g.cg (TestVector.launchCapture v1 v2) b = samples at *
  obtain ⟨init, capture, rfl⟩ : ∃ init capture, samples = [init, capture] :=
    List.length_eq_two.1 (by simpa using congrArg List.length hgood)
  simp only [List.map_cons, List.map_nil, List.cons.injEq, and_true] at hgood hfaulty
  exact ⟨init, capture, rfl, congrFun hgood.1, congrFun hgood.2, congrFun hfaulty.2⟩

/-- The verdict by the three passes, with or without a look at the capture value. -/
def transitionSeen (g : CachedGraph) (v1 v2 : TestVector) (f : CompactFault) : Bool :=
  Golden.combPass g.cg { inputs := v1.inputs } none f.netIndex == f.value &&
    g.cg.observable.any fun o => Golden.combPass g.cg { inputs := v2.inputs } none o !=
      Golden.combPass g.cg { inputs := v2.inputs } (some f) o

include h hforks hgap hb hi hf hdriven in
theorem lane_simulateTransitionBatch :
    lane i (BitParallel.simulateTransitionBatch g.cg v1 v2 b) = transitionSeen g v1 v2 f := by
  obtain ⟨init, capture, hsamples, hinit, hgood, hfaulty⟩ :=
    exists_samples h hforks hgap hb hi hf hdriven v1 v2
  have hobserve := BitParallel.lane_detected hb hi hf g.cg.observable [capture]
  simp only [List.foldl_cons, List.foldl_nil, List.any_cons, List.any_nil, Bool.or_false] at hobserve
  rw [BitParallel.simulateTransitionBatch, hsamples]
  simp only [lane_and i (_ &&& _) _, hobserve, BitParallel.lane_qualifiedLanes hb hi hf,
    BitParallel.qualifies_eq, hinit, hgood, hfaulty, transitionSeen]
  exact Bool.and_comm _ _

include h hforks in
/-- A fault that is seen at the capture is seen because the good machine has left its value. -/
theorem transitionSeen_eq (hexcl : f.exclusion = .NONE) (hdriven : g.cg.Driven f.netIndex) :
    transitionSeen g v1 v2 f =
      (Golden.combPass g.cg { inputs := v1.inputs } none f.netIndex == f.value &&
        Golden.combPass g.cg { inputs := v2.inputs } none f.netIndex == !f.value &&
        g.cg.observable.any fun o => Golden.combPass g.cg { inputs := v2.inputs } none o !=
          Golden.combPass g.cg { inputs := v2.inputs } (some f) o) := by
  rw [transitionSeen, Bool.and_assoc]
  congr 1
  rw [Bool.eq_iff_iff, Bool.and_eq_true]
  refine ⟨fun hseen => ⟨?_, hseen⟩, And.right⟩
  obtain ⟨o, -, ho⟩ := List.any_eq_true.1 hseen
  have hpair := h.combPass_testPair
    (g.gatesInOrder_of_combinational h.acyclic h.comb hforks) { inputs := v2.inputs } hexcl hdriven
  have hsite := hpair.site_differs h.rankedBy (Ne.symm (bne_iff_ne.1 ho))
  rw [beq_iff_eq]
  exact Bool.eq_not.2 hsite

include h hforks hgap in
theorem simulateTransitionSingleFault_eq (hexcl : f.exclusion = .NONE)
    (hdriven : g.cg.Driven f.netIndex) :
    BitParallel.simulateTransitionSingleFault g.cg v1 v2 f = transitionSeen g v1 v2 f := by
  have hb := singleBatch_wellFormed hexcl
  obtain ⟨init, capture, hsamples, hinit, hgood, hfaulty⟩ :=
    exists_samples h hforks hgap hb (i := 1) (by omega) (singleBatch_inLane f) hdriven v1 v2
  have hmask : ∀ w : Word, (differs w &&& (BitParallel.singleBatch f).mask != 0#64) =
      (lane 0 w != lane 1 w) := by
    intro w
    rw [BitParallel.singleBatch, Bool.eq_iff_iff, bne_iff_ne, laneMask_and_ne_zero (by omega),
      lane_differs (by omega)]
    cases lane 0 w <;> cases lane 1 w <;> simp
  rw [transitionSeen_eq h hforks v1 v2 hexcl hdriven,
    BitParallel.simulateTransitionSingleFault, if_neg (not_not.2 hexcl)]
  simp only [hsamples, hmask, hinit, hgood, hfaulty]
  rfl

include h hforks hgap in
theorem simulateTransitionFault_eq_seen (hexcl : f.exclusion = .NONE)
    (hdriven : g.cg.Driven f.netIndex) :
    Golden.simulateTransitionFault g.cg v1 v2 f = transitionSeen g v1 v2 f := by
  have hord := g.gatesInOrder_of_combinational h.acyclic h.comb hforks
  have hnet : f.netIndex < g.cg.netCount := by
    obtain ⟨n, hn, hout⟩ := hdriven
    exact hout ▸ g.out_lt_netCount hn
  rw [g.simulateTransitionFault_eq h.comb hord (wrapper_gapFree hgap) hexcl,
    g.snapshot_combPass hord h.single _ hnet, g.snapshot_combPass hord h.single _ hnet,
    transitionSeen_eq h hforks v1 v2 hexcl hdriven]
  rfl

end Agreement

/-- **The three verdicts on a transition fault agree** where every net has one driver: the lane of
the batch, the fault alone, and the golden reference. -/
theorem simulateTransitionBatch_lane_eq (g : CachedGraph) (h : g.Equational)
    (hforks : ForksPlaced g.low.nodes) (hgap : ∀ n ∈ g.cg.nodes, ¬ n.IsSource → n.GapFree)
    (b : FaultBatch) (hb : b.WellFormed) (i : ℕ) (hi : i < 64) (f : CompactFault)
    (hf : b.InLane i f) (hdriven : g.cg.Driven f.netIndex) (v1 v2 : TestVector) :
    lane i (BitParallel.simulateTransitionBatch g.cg v1 v2 b) =
        BitParallel.simulateTransitionSingleFault g.cg v1 v2 f ∧
      BitParallel.simulateTransitionSingleFault g.cg v1 v2 f =
        Golden.simulateTransitionFault g.cg v1 v2 f := by
  have hexcl := hb.not_excluded f hf.1
  have hsingle := simulateTransitionSingleFault_eq h hforks hgap v1 v2 hexcl hdriven
  have hgolden := simulateTransitionFault_eq_seen h hforks hgap v1 v2 hexcl hdriven
  exact ⟨(lane_simulateTransitionBatch h hforks hgap hb hi hf hdriven v1 v2).trans hsingle.symm,
    hsingle.trans hgolden.symm⟩

/-- The shared input of the two AND gates, slow to rise. -/
theorem andFork_transition_eq :
    lane 1 (BitParallel.simulateTransitionBatch andFork.cg {} bothHigh
        (BitParallel.singleBatch sharedInputFault)) = true ∧
      BitParallel.simulateTransitionSingleFault andFork.cg {} bothHigh sharedInputFault =
        Golden.simulateTransitionFault andFork.cg {} bothHigh sharedInputFault :=
  ⟨by decide +kernel,
    (simulateTransitionBatch_lane_eq andFork
      ⟨by decide +kernel, andFork.levelized.acyclic_iff.2 (by decide +kernel), by decide +kernel⟩
      (by decide +kernel) (by decide +kernel) (BitParallel.singleBatch sharedInputFault)
      (singleBatch_wellFormed rfl) 1 (by omega) sharedInputFault
      (singleBatch_inLane sharedInputFault) (by decide +kernel) {} bothHigh).2⟩

/-- A cell that drives the constant net `-1`, which a buffer reads. -/
def drivenConstant : CachedGraph :=
  .load (.ofCells [("a", 2)] [("z", 4)]
      [("g", .ofPins "INV" [("A", 2), ("Y", -1)]), ("b", .ofPins "BUF" [("A", -1), ("Y", 4)])])
    smallCells "fail" ∅ (by decide +kernel) (by decide +kernel)

/-- An inverter that reads its own output. -/
def ringInverter : CachedGraph :=
  .load (.ofCells [("a", 2)] [("y", 3), ("z", 4)]
      [("g", .ofPins "INV" [("A", 3), ("Y", 3)]), ("b", .ofPins "BUF" [("A", 3), ("Y", 4)])])
    smallCells "fail" ∅ (by decide +kernel) (by decide +kernel)

/-- The constant net slow to fall. -/
def constantFault : CompactFault := { netIndex := 0, type := .SA1, saMask := laneMask 1 }

/-- The branch of the ring slow to rise. -/
def ringFault : CompactFault := { netIndex := 3, saMask := laneMask 1 }

/-- With two drivers on a net, or in a ring, the batch reports a fault whose net has the fault's
own value at the capture too; the other two do not. -/
theorem simulateTransitionBatch_lane_ne :
    (drivenConstant.cg.Combinational ∧ drivenConstant.ng.Acyclic ∧
      drivenConstant.cg.Driven constantFault.netIndex ∧
      (BitParallel.singleBatch constantFault).WellFormed ∧
      (BitParallel.singleBatch constantFault).InLane 1 constantFault ∧
      lane 1 (BitParallel.simulateTransitionBatch drivenConstant.cg {} {}
        (BitParallel.singleBatch constantFault)) = true ∧
      BitParallel.simulateTransitionSingleFault drivenConstant.cg {} {} constantFault = false ∧
      Golden.simulateTransitionFault drivenConstant.cg {} {} constantFault = false) ∧
    (ringInverter.cg.Combinational ∧ ringInverter.cg.Driven ringFault.netIndex ∧
      (BitParallel.singleBatch ringFault).WellFormed ∧
      (BitParallel.singleBatch ringFault).InLane 1 ringFault ∧
      lane 1 (BitParallel.simulateTransitionBatch ringInverter.cg {} {}
        (BitParallel.singleBatch ringFault)) = true ∧
      BitParallel.simulateTransitionSingleFault ringInverter.cg {} {} ringFault = false ∧
      Golden.simulateTransitionFault ringInverter.cg {} {} ringFault = false) :=
  ⟨⟨by decide +kernel, drivenConstant.levelized.acyclic_iff.2 (by decide +kernel),
      by decide +kernel, singleBatch_wellFormed rfl, singleBatch_inLane constantFault,
      by decide +kernel, by decide +kernel, by decide +kernel⟩,
    by decide +kernel, by decide +kernel, singleBatch_wellFormed rfl,
    singleBatch_inLane ringFault, by decide +kernel, by decide +kernel, by decide +kernel⟩

end FaultFlow
