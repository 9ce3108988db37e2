/-
# Transparent wrapper cells in a mode

What `build_mode_config` does to wrapper cells that are not scan cells: a mode skips
the cells of one direction, whose nets become control points, and drives those of
the other direction to `0` (`modeActions_buildModeConfig`).
-/

import FaultFlow.IR.Drivers
import FaultFlow.Sim.ModeAgreement

namespace FaultFlow

open Lib GraphCompiler

/-- The net that a wrapper cell drives. -/
def CompiledWrapperCell.drive (wc : CompiledWrapperCell) : CompiledNetIndex :=
  if wc.isInput then wc.coreIdx else wc.sysIdx

/-- The node type of a wrapper cell. -/
def CompiledWrapperCell.nodeType (wc : CompiledWrapperCell) : GateType :=
  if wc.isInput then .WBR_IN else .WBR_OUT

/-- **Transparent wrapper cells**: none of them is a scan cell, and each is the
wrapper node on the net it drives, with its functional input in the first slot. -/
structure CompiledSimGraph.TransparentWrappers (cg : CompiledSimGraph) : Prop where
  cells : ∀ wc ∈ cg.wrapperCells,
    wc.scan = false ∧ ∃ n ∈ cg.nodes, n.type = wc.nodeType ∧ n.out = wc.drive
  gapFree : ∀ n ∈ cg.nodes, n.IsWrapper → n.GapFree

/-- The direction of the wrapper cells that a mode drives to `0`. -/
def TestMode.zeroType : TestMode → GateType
  | .EXTEST => .WBR_IN
  | _ => .WBR_OUT

/-- The direction of the wrapper cells that a mode skips. -/
def TestMode.skipType : TestMode → GateType
  | .EXTEST => .WBR_OUT
  | _ => .WBR_IN

theorem TestMode.zeroType_ne_skipType (mode : TestMode) : mode.zeroType ≠ mode.skipType := by
  cases mode <;> decide

namespace CachedGraph

/-- The actions of a mode on transparent wrapper cells: a mode skips the cells of
one direction and drives those of the other to `0`. -/
structure ModeActions (g : CachedGraph) (mode : TestMode) (mc : ModeConfig) : Prop where
  notFf : ∀ i, mc.wbrAction i ≠ .DRIVE_FROM_FF
  zero_iff : ∀ i, i ∈ mc.safeZeroNets ↔ mc.wbrAction i = .FORCE_ZERO
  zero : ∀ i, mc.wbrAction i = .FORCE_ZERO → ∃ n ∈ g.cg.nodes, n.type = mode.zeroType ∧ n.out = i
  skip : ∀ i, mc.wbrAction i = .SKIP_STIMULUS →
    ∃ n ∈ g.cg.nodes, n.type = mode.skipType ∧ n.out = i
  stem : ∀ i, mc.wbrAction i = .SKIP_STIMULUS → g.IsStem i

variable {g : CachedGraph} {mode : TestMode} {mc : ModeConfig}

theorem ModeActions.observe (h : g.ModeActions mode mc) (net : CompiledNetIndex) :
    g.ModeActions mode (mc.observe net) :=
  ⟨h.notFf, h.zero_iff, h.zero, h.skip, h.stem⟩

theorem ModeActions.safeZero (h : g.ModeActions mode mc) {net : CompiledNetIndex} {n : SimNode}
    (hn : n ∈ g.cg.nodes) (htype : n.type = mode.zeroType) (hout : n.out = net) :
    g.ModeActions mode (mc.safeZero net) := by
  have haction : ∀ i, (mc.safeZero net).wbrAction i =
      if i = net then .FORCE_ZERO else mc.wbrAction i := fun i => Function.update_apply ..
  have hzero : ∀ i, i ∈ (mc.safeZero net).safeZeroNets ↔ i ∈ mc.safeZeroNets ∨ i = net :=
    fun i => mem_pushUnique
  refine ⟨fun i => ?_, fun i => ?_, fun i => ?_, fun i => ?_, fun i => ?_⟩ <;>
    by_cases hi : i = net <;> simp only [haction, hzero, hi, if_true, if_false, or_true, or_false]
  · decide
  · exact h.notFf i
  · exact h.zero_iff i
  · exact fun _ => ⟨n, hn, htype, hout⟩
  · exact h.zero i
  · exact fun hskip => absurd hskip (by decide)
  · exact h.skip i
  · exact fun hskip => absurd hskip (by decide)
  · exact h.stem i

theorem ModeActions.control (hone : g.cg.SingleDriver) (h : g.ModeActions mode mc)
    {net : CompiledNetIndex} (hnet : g.IsStem net) {n : SimNode} (hn : n ∈ g.cg.nodes)
    (htype : n.type = mode.skipType) (hout : n.out = net) : g.ModeActions mode (mc.control net) := by
  have haction : ∀ i, (mc.control net).wbrAction i =
      if i = net then .SKIP_STIMULUS else mc.wbrAction i := fun i => Function.update_apply ..
  have hzero : ∀ i, i ∈ (mc.control net).safeZeroNets ↔ i ∈ mc.safeZeroNets := fun _ => Iff.rfl
  have hnot : net ∉ mc.safeZeroNets := by
    -- the driver of the net has the type of the skipped cells
    intro hmem
    obtain ⟨m, hm, htype', hout'⟩ := h.zero net ((h.zero_iff net).1 hmem)
    obtain rfl := hone.eq hm hn (hout'.trans hout.symm)
    exact mode.zeroType_ne_skipType (htype'.symm.trans htype)
  refine ⟨fun i => ?_, fun i => ?_, fun i => ?_, fun i => ?_, fun i => ?_⟩ <;>
    by_cases hi : i = net <;> simp only [haction, hzero, hi, if_true, if_false]
  · decide
  · exact h.notFf i
  · exact iff_of_false hnot (by decide)
  · exact h.zero_iff i
  · exact fun hforce => absurd hforce (by decide)
  · exact h.zero i
  · exact fun _ => ⟨n, hn, htype, hout⟩
  · exact h.skip i
  · exact fun _ => hnet
  · exact h.stem i

/-- One wrapper cell. -/
theorem ModeActions.modeWrapperCell (hone : g.cg.SingleDriver) (h : g.ModeActions mode mc)
    (hmode : mode ≠ .FUNCTIONAL) {wc : CompiledWrapperCell} (hwc : wc ∈ g.cg.wrapperCells)
    (hscan : wc.scan = false) {n : SimNode} (hn : n ∈ g.cg.nodes) (htype : n.type = wc.nodeType)
    (hout : n.out = wc.drive) : g.ModeActions mode (modeWrapperCell mode mc wc) := by
  obtain ⟨hcore, hsys⟩ := isStem_of_wrapperCell hwc
  unfold FaultFlow.modeWrapperCell
  simp only [hscan, Bool.false_eq_true, if_false]
  unfold CompiledWrapperCell.nodeType at htype
  unfold CompiledWrapperCell.drive at hout
  cases mode with
  | FUNCTIONAL => exact absurd rfl hmode
  | INTEST =>
    simp only [if_true]
    split <;> rename_i hin <;> simp only [hin, if_true, if_false, Bool.false_eq_true] at htype hout
    · exact h.control hone hcore hn htype hout
    · exact (h.observe _).safeZero hn htype hout
  | EXTEST =>
    rw [if_neg (by decide)]
    split <;> rename_i hin <;> simp only [hin, if_true, if_false, Bool.false_eq_true] at htype hout
    · exact (h.observe _).safeZero hn htype hout
    · exact h.control hone hsys hn htype hout

/-- **What `build_mode_config` does to transparent wrapper cells.** -/
theorem modeActions_buildModeConfig (hone : g.cg.SingleDriver)
    (hwrap : g.cg.TransparentWrappers) (hmode : mode ≠ .FUNCTIONAL) :
    g.ModeActions mode (buildModeConfig g.cg mode) := by
  have hcells : g.ModeActions mode
      (g.cg.wrapperCells.foldl (FaultFlow.modeWrapperCell mode) { mode := mode }) := by
    refine Lib.foldl_invariant (g.ModeActions mode)
      ⟨by simp, by simp, by simp, by simp, by simp⟩ fun wc hwc mc h => ?_
    obtain ⟨hscan, n, hn, htype, hout⟩ := hwrap.cells wc hwc
    exact h.modeWrapperCell hone hmode hwc hscan hn htype hout
  unfold buildModeConfig
  rw [if_neg hmode]
  dsimp only
  split
  · exact ⟨hcells.notFf, hcells.zero_iff, hcells.zero, hcells.skip, hcells.stem⟩
  · exact hcells

/-- The mode of a configuration is the one it was built for. -/
theorem mode_buildModeConfig (cg : CompiledSimGraph) (mode : TestMode) :
    (buildModeConfig cg mode).mode = mode := by
  have hcells : (cg.wrapperCells.foldl (FaultFlow.modeWrapperCell mode) { mode := mode }).mode =
      mode := by
    refine Lib.foldl_invariant (fun mc : ModeConfig => mc.mode = mode) rfl fun wc _ mc h => ?_
    unfold FaultFlow.modeWrapperCell
    dsimp only
    split_ifs <;> exact h
  unfold buildModeConfig
  split_ifs <;> first | rfl | exact hcells

end CachedGraph

end FaultFlow
