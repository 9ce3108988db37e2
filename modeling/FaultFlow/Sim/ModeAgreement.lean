/-
# Wrapper modes

The mode-aware simulations of a combinational circuit with wrapper cells.  In a
mode a wrapper cell passes its input, is skipped (its net is a control point and
keeps the stimulus) or drives `0`.  The golden `run_comb_mode` evaluates once;
`simulate_single_fault` once as well, and `simulate_batch` twice.

A skipped node reads its own net, so a second pass sees the stimulus again
(`evaluateMode_idem`), and `simulateBatchMode_lane_iff` compares all three.  They
agree on vectors without explicit cycles: `simulate_batch` reads the cycles of a
vector, the other two its inputs (`explicitCycle`).
-/

import FaultFlow.Sim.CombAgreement

namespace FaultFlow

open Lib GraphCompiler

/-- No other node drives the net of a wrapper cell. -/
def CompiledSimGraph.WrappersAlone (cg : CompiledSimGraph) : Prop :=
  ∀ n ∈ cg.nodes, n.IsWrapper → ∀ m ∈ cg.nodes, m.out = n.out → m = n

instance (cg : CompiledSimGraph) : Decidable cg.WrappersAlone :=
  inferInstanceAs (Decidable (∀ n ∈ cg.nodes, n.IsWrapper → ∀ m ∈ cg.nodes, m.out = n.out → m = n))

/-! ## What `build_mode_config` builds -/

namespace CachedGraph

variable (g : CachedGraph)

/-- Every skipped net is a control point, and every observation point is a stem. -/
structure ModeInv (mc : ModeConfig) : Prop where
  controls : ∀ i, mc.wbrAction i = .SKIP_STIMULUS → i ∈ mc.stimulusNets
  stems : ∀ o ∈ mc.observableNets, g.IsStem o

variable {g} {mc : ModeConfig}

theorem mem_pushUnique {v : List CompiledNetIndex} {x i : CompiledNetIndex} :
    i ∈ pushUnique v x ↔ i ∈ v ∨ i = x := by
  simpa using mem_foldl_pushUnique [x] v i

/-- An action keeps the invariant if a stimulus is listed. -/
theorem ModeInv.setAction (h : g.ModeInv mc) (net : CompiledNetIndex) {action : WbrAction}
    (hact : action = .SKIP_STIMULUS → net ∈ mc.stimulusNets) :
    g.ModeInv (mc.setAction net action) := by
  refine ⟨fun i hi => ?_, h.stems⟩
  by_cases hin : i = net
  · subst hin
    exact hact (by simpa [ModeConfig.setAction] using hi)
  · exact h.controls i (by simpa [ModeConfig.setAction, hin] using hi)

/-- A control point keeps it. -/
theorem ModeInv.control (h : g.ModeInv mc) (net : CompiledNetIndex) : g.ModeInv (mc.control net) := by
  have hpush : g.ModeInv { mc with stimulusNets := pushUnique mc.stimulusNets net } :=
    ⟨fun i hi => mem_pushUnique.2 (.inl (h.controls i hi)), h.stems⟩
  exact hpush.setAction net fun _ => mem_pushUnique.2 (.inr rfl)

/-- So does an observed stem. -/
theorem ModeInv.observe (h : g.ModeInv mc) {net : CompiledNetIndex} (hnet : g.IsStem net) :
    g.ModeInv (mc.observe net) := by
  refine ⟨h.controls, fun o ho => ?_⟩
  rcases mem_pushUnique.1 ho with ho | rfl
  · exact h.stems o ho
  · exact hnet

/-- So does a safe zero. -/
theorem ModeInv.safeZero (h : g.ModeInv mc) (net : CompiledNetIndex) :
    g.ModeInv (mc.safeZero net) := by
  have hpush : g.ModeInv { mc with safeZeroNets := pushUnique mc.safeZeroNets net } :=
    ⟨h.controls, h.stems⟩
  exact hpush.setAction net fun hact => by cases hact

/-- One wrapper cell. -/
theorem ModeInv.modeWrapperCell (h : g.ModeInv mc) (mode : TestMode) {wc : CompiledWrapperCell}
    (hcore : g.IsStem wc.coreIdx) (hsys : g.IsStem wc.sysIdx) :
    g.ModeInv (modeWrapperCell mode mc wc) := by
  unfold FaultFlow.modeWrapperCell
  simp only
  split
  · generalize (if mode = .INTEST then wc.isInput else !wc.isInput) = active
    cases active
    · exact h.safeZero _
    · exact h.setAction _ fun hact => by cases hact
  · split
    · split
      · exact h.control _
      · exact (h.observe hcore).safeZero _
    · split
      · exact (h.observe hsys).safeZero _
      · exact h.control _

/-- Both sides of a wrapper cell are stems. -/
theorem isStem_of_wrapperCell {wc : CompiledWrapperCell} (hwc : wc ∈ g.cg.wrapperCells) :
    g.IsStem wc.coreIdx ∧ g.IsStem wc.sysIdx := by
  rw [g.cg_eq] at hwc
  obtain ⟨w, -, hw⟩ := List.mem_filterMap.1 hwc
  unfold compileWrapperCell at hw
  obtain ⟨core, hcore, hw⟩ := Option.bind_eq_some_iff.1 hw
  obtain ⟨sys, hsys, hw⟩ := Option.bind_eq_some_iff.1 hw
  cases hw
  rw [IsStem, IsStem, yosysToCompiled_eq]
  exact ⟨⟨_, hcore⟩, ⟨_, hsys⟩⟩

/-- **`build_mode_config` skips control points only.** -/
theorem modeInv_buildModeConfig (g : CachedGraph) (mode : TestMode) :
    g.ModeInv (buildModeConfig g.cg mode) := by
  have hcells : g.ModeInv (g.cg.wrapperCells.foldl (FaultFlow.modeWrapperCell mode) { mode := mode }) := by
    refine Lib.foldl_invariant g.ModeInv ⟨by simp, by simp⟩ fun wc hwc mc h => ?_
    obtain ⟨hcore, hsys⟩ := isStem_of_wrapperCell hwc
    exact h.modeWrapperCell mode hcore hsys
  unfold buildModeConfig
  split
  · exact ⟨by simp, fun _ ho => g.isStem_of_observable ho⟩
  · simp only
    split
    · refine ⟨fun i hi => (mem_foldl_pushUnique _ _ i).2 (.inl (hcells.controls i hi)), fun o ho => ?_⟩
      rcases (mem_foldl_pushUnique _ _ o).1 ho with ho | ho
      · exact hcells.stems o ho
      · exact g.isStem_of_observable (List.mem_filter.1 ho).1
    · exact hcells

end CachedGraph

/-! ## One pass in a mode -/

namespace CachedGraph

variable {g : CachedGraph} {mc : ModeConfig}

/-- A wrapper cell that the mode skips drives the net. -/
def Skipped (g : CachedGraph) (mc : ModeConfig) (i : CompiledNetIndex) : Prop :=
  ∃ n ∈ g.cg.nodes, n.IsWrapper ∧ n.out = i ∧ mc.wbrAction i = .SKIP_STIMULUS

/-- A pass in a mode reads no stale gate output, skipped control points apart. -/
theorem fresh_mode (hord : g.cg.GatesInOrder) (mc : ModeConfig) (fault : Option CompactFault) :
    Assign.Fresh {i | g.cg.GateDriven i ∧ ¬ Skipped g mc i}
      (Golden.nodeAssigns mc.wbrAction fault g.cg.nodes) := by
  refine Assign.fresh_iff.2 fun pre a post heq i hi hD => ?_
  obtain ⟨k, n, hn, hsrc, rfl, hpre⟩ := Golden.exists_of_nodeAssigns_eq heq
  have hi' : i ∈ Golden.nodeReads mc.wbrAction n := hi
  unfold Golden.nodeReads at hi'
  split at hi'
  · rename_i hskip
    obtain rfl := List.mem_singleton.1 hi'
    exact absurd ⟨n, List.mem_of_getElem? hn, hskip.1, rfl, hskip.2⟩ hD.2
  · obtain ⟨w, hw, hgate, rfl⟩ := hord (n, k) (List.mem_zipIdx_iff_getElem?.2 hn) hsrc i hi' hD.1
    exact hpre w hw hgate

/-- A pass in a mode. -/
theorem evaluateMode_eq_run (x : Values) (fault : Option CompactFault) :
    Golden.evaluateCombinational g.cg x fault (some mc) =
      Assign.run (Golden.nodeAssigns mc.wbrAction fault g.cg.nodes) x := by
  rw [Golden.evaluateCombinational_eq_run, g.passNodes_eq]
  rfl

/-- A skipped control point keeps its stimulus, on which the fault has acted. -/
theorem evaluateMode_skipped (halone : g.cg.WrappersAlone) {fault : Option CompactFault} {x : Values}
    {i : CompiledNetIndex} (hskip : Skipped g mc i) (hx : Golden.force fault i (x i) = x i) :
    Golden.evaluateCombinational g.cg x fault (some mc) i = x i := by
  obtain ⟨n, hn, hw, rfl, hact⟩ := hskip
  rw [evaluateMode_eq_run]
  refine Assign.run_of_kept fun a ha hout y hy => ?_
  obtain ⟨m, hm, rfl⟩ := List.mem_map.1 ha
  obtain rfl := halone n hn hw m (List.mem_filter.1 hm).1 hout
  have htype : m.type = .WBR_IN ∨ m.type = .WBR_OUT := hw
  have hvalue : Golden.modeValue mc.wbrAction y m = y m.out := by
    rw [Golden.modeValue, if_pos htype, hact]
  show Golden.force fault m.out (Golden.modeValue mc.wbrAction y m) = x m.out
  rw [hvalue, hy, hx]

/-- **A second pass in a mode changes nothing.** -/
theorem evaluateMode_idem (hord : g.cg.GatesInOrder) (halone : g.cg.WrappersAlone)
    {fault : Option CompactFault} {x : Values}
    (hx : ∀ i, Skipped g mc i → Golden.force fault i (x i) = x i) :
    Golden.evaluateCombinational g.cg (Golden.evaluateCombinational g.cg x fault (some mc)) fault
        (some mc) =
      Golden.evaluateCombinational g.cg x fault (some mc) := by
  have hrun : ∀ y, Golden.evaluateCombinational g.cg y fault (some mc) =
      Assign.run (Golden.nodeAssigns mc.wbrAction fault g.cg.nodes) y := fun y =>
    evaluateMode_eq_run y fault
  rw [hrun (Golden.evaluateCombinational g.cg x fault (some mc))]
  conv_rhs => rw [hrun x]
  funext i
  refine Assign.run_agree (fresh_mode hord mc fault) (fun j hj => ?_) fun hD =>
    Golden.mem_outs_nodeAssigns.2 hD.1
  by_cases hskip : Skipped g mc j
  · exact evaluateMode_skipped halone hskip (hx j hskip)
  · rw [hrun x]
    exact Assign.run_of_not_mem (fun hmem => hj ⟨Golden.mem_outs_nodeAssigns.1 hmem, hskip⟩) x

end CachedGraph

/-! ## The engines in a mode -/

namespace Golden

/-- Forcing a net twice is forcing it once. -/
theorem force_force (fault : Option CompactFault) (net : CompiledNetIndex) (x : Bool) :
    force fault net (force fault net x) = force fault net x := by
  cases fault with
  | none => rfl
  | some f =>
    simp only [force]
    split <;> rfl

end Golden

section Mode

variable {g : CachedGraph} (hcomb : g.cg.Combinational) (hord : g.cg.GatesInOrder)
  (hgap : BitParallel.GatesGapFree g.cg) (halone : g.cg.WrappersAlone) {mc : ModeConfig}
  (hmc : g.ModeInv mc) {b : FaultBatch} (hb : b.WellFormed) {i : ℕ} (hi : i < 64)
  (hdriven : ∀ f, b.laneFault i = some f → g.cg.Driven f.netIndex)
  (inputs : Std.TreeMap YosysNetID Bool)

/-- The words an evaluation starts from: inputs and control points driven, faults
injected. -/
def stimulated (cg : CompiledSimGraph) (mc : ModeConfig) (b : FaultBatch)
    (inputs : Std.TreeMap YosysNetID Bool) : Words :=
  BitParallel.injectAll b (BitParallel.driveNets cg inputs mc.stimulusNets
    (BitParallel.driveNets cg inputs cg.piNets fun _ => 0#64))

include hcomb in
/-- Without flip-flops settling is a pass. -/
theorem BitParallel.settle_eq (fs : ℕ → Word) (mc : Option ModeConfig) (nv : Words) :
    BitParallel.settle g.cg b mc fs nv = BitParallel.evaluate g.cg b mc nv := by
  rw [BitParallel.settle, BitParallel.seedFfOutputs, g.ffs_eq_nil hcomb]
  rfl

include hcomb in
/-- So it is for one machine. -/
theorem Golden.settleMode_eq (fault : Option CompactFault) (fs : ℕ → Bool) (mc : Option ModeConfig)
    (x : Values) :
    Golden.settle g.cg fault mc fs x = Golden.evaluateCombinational g.cg x fault mc := by
  rw [Golden.settle, Golden.seedFfOutputs, g.ffs_eq_nil hcomb]
  rfl

include hcomb hord hgap hmc hb hi hdriven in
/-- **One pass in a mode is the golden pass in each lane.** -/
theorem runCombMode_lane (n : CompiledNetIndex) :
    Golden.runCombMode g.cg { inputs := inputs } (b.laneFault i) mc n =
      lane i (BitParallel.evaluate g.cg b (some mc) (stimulated g.cg mc b inputs) n) := by
  let D : Set CompiledNetIndex :=
    {n | n ∉ g.cg.piNets ++ mc.stimulusNets ∧ ∃ f, b.laneFault i = some f ∧ f.netIndex = n}
  -- a fault's net that nothing drives from outside is a gate's, and not skipped
  have hD : D ⊆ {n | g.cg.GateDriven n ∧ ¬ CachedGraph.Skipped g mc n} := by
    rintro n ⟨hn, f, hf, rfl⟩
    rw [List.mem_append, not_or] at hn
    obtain ⟨w, hw, hout⟩ := hdriven f hf
    refine ⟨⟨w, hw, ?_, hout⟩, ?_⟩
    · rintro (htype | htype)
      · exact hn.1 (hout ▸ g.mem_piNets_of_input hw htype)
      · exact hcomb w hw htype
    · rintro ⟨m, -, -, -, hact⟩
      exact hn.2 (hmc.controls _ hact)
  have hassigns : ∀ fs, Golden.settleAssigns g.cg (b.laneFault i) (some mc) fs =
      Golden.nodeAssigns mc.wbrAction (b.laneFault i) g.cg.nodes := by
    intro fs
    rw [Golden.settleAssigns, Golden.seedAssigns, g.ffs_eq_nil hcomb, g.passNodes_eq]
    rfl
  have hstart : ∀ n ∉ D, Golden.driveNets g.cg inputs (b.laneFault i) mc.stimulusNets
      (Golden.driveNets g.cg inputs (b.laneFault i) g.cg.piNets fun _ => false) n =
      lane i (stimulated g.cg mc b inputs n) := by
    intro n hn
    have hnet : n ∈ g.cg.piNets ++ mc.stimulusNets ∨
        ∀ f, b.laneFault i = some f → f.netIndex ≠ n := by
      by_cases hmem : n ∈ g.cg.piNets ++ mc.stimulusNets
      · exact .inl hmem
      · exact .inr fun f hf hfn => hn ⟨hmem, f, hf, hfn⟩
    have hdrive : Golden.driveNets g.cg inputs (b.laneFault i) (g.cg.piNets ++ mc.stimulusNets)
        (fun _ => false) n =
        lane i (BitParallel.injectAll b (BitParallel.driveNets g.cg inputs
          (g.cg.piNets ++ mc.stimulusNets) fun _ => 0#64) n) :=
      BitParallel.drive_agree hb hi inputs (fun _ => (lane_zero i).symm) hnet
    rw [Golden.driveNets, BitParallel.driveNets, List.foldl_append, List.foldl_append] at hdrive
    exact hdrive
  have hpass : Golden.settle g.cg (b.laneFault i) (some mc) (fun _ => false)
      (Golden.driveNets g.cg inputs (b.laneFault i) mc.stimulusNets
        (Golden.driveNets g.cg inputs (b.laneFault i) g.cg.piNets fun _ => false)) n =
      lane i (BitParallel.settle g.cg b (some mc) (fun _ => 0#64)
        (stimulated g.cg mc b inputs) n) := by
    refine BitParallel.settle_agree hgap hb hi (fun _ => (lane_zero i).symm) ?_ ?_ hstart n
    · rw [hassigns]
      exact (CachedGraph.fresh_mode hord mc _).mono hD
    · intro n hn
      rw [hassigns]
      exact Golden.mem_outs_nodeAssigns.2 (hD hn).1
  rwa [Golden.settleMode_eq hcomb, BitParallel.settle_eq hcomb] at hpass

include hcomb hord hgap halone hmc hb hi hdriven in
/-- The second half of the cycle changes nothing. -/
theorem evaluateMode_lane (n : CompiledNetIndex) :
    lane i (BitParallel.evaluate g.cg b (some mc)
      (BitParallel.evaluate g.cg b (some mc) (stimulated g.cg mc b inputs)) n) =
    Golden.runCombMode g.cg { inputs := inputs } (b.laneFault i) mc n := by
  have hfirst := runCombMode_lane hcomb hord hgap hmc hb hi hdriven inputs
  have hsecond := BitParallel.settle_agree_of_agree (some mc) hgap hb hi
    (fun _ => (lane_zero i).symm) hfirst n
  rw [Golden.settleMode_eq hcomb, BitParallel.settle_eq hcomb] at hsecond
  rw [← hsecond, Golden.runCombMode, CachedGraph.evaluateMode_idem hord halone]
  rintro j ⟨m, -, -, rfl, hact⟩
  rw [Golden.driveNets_apply, if_pos (hmc.controls _ hact), Golden.force_force]

end Mode

/-- Detection in a mode compares the values of its observation points. -/
theorem CachedGraph.isDetectedMode_snapshot {g : CachedGraph} {mc : ModeConfig} (hmc : g.ModeInv mc)
    (x y : Values) :
    Golden.isDetectedMode g.cg (Golden.snapshot g.cg x) (Golden.snapshot g.cg y) mc =
      mc.observableNets.any fun o => x o != y o := by
  rw [Golden.isDetectedMode, Bool.eq_iff_iff, List.any_eq_true, List.any_eq_true]
  refine exists_congr fun o => and_congr_right fun ho => ?_
  rw [g.snapshot_yosysOf (hmc.stems o ho), g.snapshot_yosysOf (hmc.stems o ho)]

/-- **In every mode the bit of a lane, and the verdict on a single fault, are the
golden verdict over the observation points of the mode**, for a vector without
explicit cycles. -/
theorem simulateBatchMode_lane_iff (g : CachedGraph) (hcomb : g.cg.Combinational)
    (hac : g.ng.Acyclic) (hforks : ForksPlaced g.low.nodes) (hgap : BitParallel.GatesGapFree g.cg)
    (halone : g.cg.WrappersAlone) (mode : TestMode) (vec : TestVector) (hvec : vec.cycles = [])
    (b : FaultBatch) (hb : b.WellFormed) (i : ℕ) (hi : i < 64) (f : CompactFault)
    (hf : b.InLane i f) (hdriven : g.cg.Driven f.netIndex) :
    (lane i (BitParallel.simulateBatchMode g.cg vec b (buildModeConfig g.cg mode)) = true ↔
      Golden.isDetectedMode g.cg
        (Golden.simulateFaultFreeMode g.cg vec (buildModeConfig g.cg mode))
        (Golden.simulateWithFaultMode g.cg vec f (buildModeConfig g.cg mode))
        (buildModeConfig g.cg mode) = true) ∧
    (BitParallel.simulateSingleFaultMode g.cg vec f (buildModeConfig g.cg mode) = true ↔
      Golden.isDetectedMode g.cg
        (Golden.simulateFaultFreeMode g.cg vec (buildModeConfig g.cg mode))
        (Golden.simulateWithFaultMode g.cg vec f (buildModeConfig g.cg mode))
        (buildModeConfig g.cg mode) = true) := by
  have hmc := g.modeInv_buildModeConfig mode
  generalize buildModeConfig g.cg mode = mc at hmc ⊢
  have hord := g.gatesInOrder_of_combinational hac hcomb hforks
  have hexcl := hb.not_excluded f hf.1
  have hgolden : Golden.isDetectedMode g.cg (Golden.simulateFaultFreeMode g.cg vec mc)
      (Golden.simulateWithFaultMode g.cg vec f mc) mc = mc.observableNets.any fun o =>
        Golden.runCombMode g.cg { inputs := vec.inputs } none mc o !=
          Golden.runCombMode g.cg { inputs := vec.inputs } (some f) mc o := by
    rw [Golden.simulateFaultFreeMode, Golden.simulateWithFaultMode, if_pos hexcl,
      g.isDetectedMode_snapshot hmc]
    rfl
  rw [hgolden]
  have hzero : ∀ b : FaultBatch, b.WellFormed → ∀ f, b.laneFault 0 = some f →
      g.cg.Driven f.netIndex := fun b hb => by simp [hb.laneFault_zero]
  constructor
  · have hlf := hb.laneFault_eq hf
    have hfaulty := evaluateMode_lane hcomb hord hgap halone hmc hb hi
      (fun f' hf' => by rwa [← Option.some.inj (hlf.symm.trans hf')]) vec.inputs
    have hgood := evaluateMode_lane hcomb hord hgap halone hmc hb (i := 0) (by omega) (hzero b hb)
      vec.inputs
    rw [hlf] at hfaulty
    rw [hb.laneFault_zero] at hgood
    have hruns : BitParallel.runCycles g.cg b (some mc) mc.stimulusNets
        { ffStates := BitParallel.initialFfStates g.cg vec } vec.cyclesFor =
        [BitParallel.evaluate g.cg b (some mc)
          (BitParallel.evaluate g.cg b (some mc) (stimulated g.cg mc b vec.inputs))] := by
      simp only [TestVector.cyclesFor, hvec, List.isEmpty_nil, if_true, BitParallel.runCycles,
        BitParallel.runCycle, BitParallel.settle_eq hcomb, List.range_zero, List.foldl_nil]
      rfl
    rw [BitParallel.simulateBatchMode, hruns, lane_and, FaultBatch.lane_mask hb hi hf, Bool.and_true,
      BitParallel.lane_foldl_observe hi, lane_zero, Bool.false_or, List.any_cons, List.any_nil,
      Bool.or_false]
    simp only [hfaulty, hgood]
  · have hsb := singleBatch_wellFormed hexcl
    have hlf := hsb.laneFault_eq (singleBatch_inLane f)
    have hfaulty := runCombMode_lane hcomb hord hgap hmc hsb (i := 1) (by omega)
      (fun f' hf' => by rw [← Option.some.inj (hlf.symm.trans hf')]; exact hdriven) vec.inputs
    have hgood := runCombMode_lane hcomb hord hgap hmc hsb (i := 0) (by omega) (hzero _ hsb)
      vec.inputs
    rw [hlf] at hfaulty
    rw [hsb.laneFault_zero] at hgood
    have hobserve := BitParallel.lane_foldl_observe (i := 1) (by omega) mc.observableNets
      [BitParallel.evaluate g.cg (BitParallel.singleBatch f) (some mc)
        (stimulated g.cg mc (BitParallel.singleBatch f) vec.inputs)] 0#64
    rw [BitParallel.simulateSingleFaultMode, if_neg (not_not.2 hexcl), bne_iff_ne]
    refine (laneMask_and_ne_zero (by omega) _).trans ?_
    rw [lane_zero, Bool.false_or, List.any_cons, List.any_nil, Bool.or_false, List.foldl_cons,
      List.foldl_nil] at hobserve
    simp only [← hfaulty, ← hgood] at hobserve
    exact iff_of_eq (congrArg (· = true) hobserve)

/-- A buffer between two transparent wrapper cells. -/
def wrappedCore : CachedGraph :=
  .load (.ofCells [("a", 2)] [("y", 5)]
      [("wi", .ofPins "WBRIN" [("FROM_SYS", 2), ("TO_CORE", 3)]),
       ("g", .ofPins "BUF" [("A", 3), ("Y", 4)]),
       ("wo", .ofPins "WBROUT" [("FROM_CORE", 4), ("TO_SYS", 5)])])
    smallCells "fail" ∅ (by decide +kernel) (by decide +kernel)

/-- The core side of the input wrapper stuck at 0. -/
def coreFault : CompactFault := { netIndex := 1, saMask := laneMask 1 }

/-- The core driven high. -/
def coreHigh : TestVector := { inputs := Std.TreeMap.ofList [((3 : YosysNetID), true)] }

theorem wrappedCore_lane_iff :
    (lane 1 (BitParallel.simulateBatchMode wrappedCore.cg coreHigh
        (BitParallel.singleBatch coreFault) (buildModeConfig wrappedCore.cg .INTEST)) = true ↔
      Golden.isDetectedMode wrappedCore.cg
        (Golden.simulateFaultFreeMode wrappedCore.cg coreHigh
          (buildModeConfig wrappedCore.cg .INTEST))
        (Golden.simulateWithFaultMode wrappedCore.cg coreHigh coreFault
          (buildModeConfig wrappedCore.cg .INTEST))
        (buildModeConfig wrappedCore.cg .INTEST) = true) ∧
    (BitParallel.simulateSingleFaultMode wrappedCore.cg coreHigh coreFault
        (buildModeConfig wrappedCore.cg .INTEST) = true ↔
      Golden.isDetectedMode wrappedCore.cg
        (Golden.simulateFaultFreeMode wrappedCore.cg coreHigh
          (buildModeConfig wrappedCore.cg .INTEST))
        (Golden.simulateWithFaultMode wrappedCore.cg coreHigh coreFault
          (buildModeConfig wrappedCore.cg .INTEST))
        (buildModeConfig wrappedCore.cg .INTEST) = true) :=
  simulateBatchMode_lane_iff wrappedCore (by decide +kernel)
    (wrappedCore.levelized.acyclic_iff.2 (by decide +kernel)) (by decide +kernel)
    (by decide +kernel) (by decide +kernel) .INTEST coreHigh rfl
    (BitParallel.singleBatch coreFault) (singleBatch_wellFormed rfl) 1 (by omega) coreFault
    (singleBatch_inLane coreFault) (by decide +kernel)

/-- The core driven high, in an explicit cycle. -/
def explicitCycle : TestVector := { cycles := [{ inputs := coreHigh.inputs }] }

/-- The batch reads the cycle and sees the fault; the golden reference and the
single-fault run read the inputs of the vector and do not. -/
theorem wrappedCore_explicitCycle_ne : wrappedCore.cg.Combinational ∧
    (∀ wc ∈ wrappedCore.cg.wrapperCells, wc.scan = false) ∧
    wrappedCore.cg.Driven coreFault.netIndex ∧
    (BitParallel.singleBatch coreFault).WellFormed ∧
    (BitParallel.singleBatch coreFault).InLane 1 coreFault ∧
    lane 1 (BitParallel.simulateBatchMode wrappedCore.cg explicitCycle
      (BitParallel.singleBatch coreFault) (buildModeConfig wrappedCore.cg .INTEST)) = true ∧
    Golden.isDetectedMode wrappedCore.cg
      (Golden.simulateFaultFreeMode wrappedCore.cg explicitCycle
        (buildModeConfig wrappedCore.cg .INTEST))
      (Golden.simulateWithFaultMode wrappedCore.cg explicitCycle coreFault
        (buildModeConfig wrappedCore.cg .INTEST))
      (buildModeConfig wrappedCore.cg .INTEST) = false :=
  ⟨by decide +kernel, by decide +kernel, by decide +kernel, singleBatch_wellFormed rfl,
    singleBatch_inLane coreFault, by decide +kernel, by decide +kernel⟩

end FaultFlow
