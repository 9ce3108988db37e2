/-
# The mode-aware solver and the golden reference

In a mode the golden `run_comb_mode` solves a system of equations as well
(`goldenAssigns`): a skipped wrapper cell has none, and one on a safe-zero net is
`0`, in either direction.  The solver encodes the same equations except for output
wrappers on a safe-zero net, which `INTEST` has.  The two agree on every fault from
which no observation point is reached that such a net feeds too
(`solveStuckAtFaultMode_iff_detects`).
-/

import FaultFlow.Atpg.ModeSolver
import FaultFlow.Sim.ModeActions

namespace FaultFlow

open Lib
open Std (TreeMap)

/-! ## The golden pass in a mode -/

namespace Atpg

/-- The nodes that the mode drives to `0`. -/
def goldenZero (mc : ModeConfig) (n : SimNode) : Bool :=
  decide (n.IsWrapper ∧ mc.wbrAction n.out = .FORCE_ZERO)

/-- The nodes that the mode skips. -/
def goldenFree (mc : ModeConfig) (n : SimNode) : Bool :=
  decide (n.IsWrapper ∧ mc.wbrAction n.out = .SKIP_STIMULUS)

/-- The equations of the golden reference in a mode. -/
def goldenAssigns (cg : CompiledSimGraph) (mc : ModeConfig) : List (Assign CompiledNetIndex Bool) :=
  wrapperAssigns cg (goldenZero mc) (goldenFree mc)

end Atpg

open Atpg

/-- Without flip-flop cells a node that is not skipped has its equation's value. -/
theorem Golden.modeValue_eq_fn {mc : ModeConfig} (hff : ∀ i, mc.wbrAction i ≠ .DRIVE_FROM_FF)
    {n : SimNode} (hgap : n.IsWrapper → n.GapFree) (hfree : goldenFree mc n = false) (x : Values) :
    Golden.modeValue mc.wbrAction x n = (wrapperAssign (goldenZero mc) n).fn x := by
  have hfree := of_decide_eq_false hfree
  have hplain : (CompiledSimGraph.gateAssign n).fn x = Golden.plainValue x n := by
    rw [Golden.plainValue_eq]
    rfl
  by_cases hw : n.IsWrapper
  · have htype : n.type = .WBR_IN ∨ n.type = .WBR_OUT := hw
    rw [wrapperAssign]
    cases hact : mc.wbrAction n.out with
    | SKIP_STIMULUS => exact absurd ⟨hw, hact⟩ hfree
    | DRIVE_FROM_FF => exact absurd hact (hff _)
    | FORCE_ZERO =>
      have hz : goldenZero mc n = true := decide_eq_true ⟨hw, hact⟩
      rw [hz, if_pos rfl, Golden.modeValue, if_pos htype, hact]
      rfl
    | PASS =>
      have hz : goldenZero mc n = false := decide_eq_false fun h => by
        rw [hact] at h
        exact absurd h.2 (by decide)
      rw [hz, if_neg Bool.false_ne_true, hplain, Golden.plainValue_eq_modeValue hgap,
        Golden.modeValue, Golden.modeValue, if_pos htype, if_pos htype, hact]
  · have hz : goldenZero mc n = false := decide_eq_false fun h => hw h.1
    have htype : ¬ (n.type = .WBR_IN ∨ n.type = .WBR_OUT) := hw
    rw [wrapperAssign, hz, if_neg Bool.false_ne_true, hplain, Golden.modeValue, if_neg htype]

namespace CachedGraph

variable {g : CachedGraph} {mc : ModeConfig}

instance (g : CachedGraph) (mc : ModeConfig) (i : CompiledNetIndex) : Decidable (Skipped g mc i) :=
  inferInstanceAs (Decidable (∃ n ∈ g.cg.nodes, n.IsWrapper ∧ n.out = i ∧
    mc.wbrAction i = .SKIP_STIMULUS))

theorem skipped_iff_goldenFree (hone : g.cg.SingleDriver) {n : SimNode} (hn : n ∈ g.cg.nodes) :
    Skipped g mc n.out ↔ goldenFree mc n = true := by
  rw [goldenFree, decide_eq_true_iff]
  constructor
  · rintro ⟨m, hm, hw, hout, hact⟩
    obtain rfl := hone.eq hm hn hout
    exact ⟨hw, hact⟩
  · rintro ⟨hw, hact⟩
    exact ⟨n, hn, hw, rfl, hact⟩

/-- The values that the pass in a mode starts from. -/
def modeStart (cg : CompiledSimGraph) (vec : TestVector) (fault : Option CompactFault)
    (mc : ModeConfig) : Values :=
  Golden.driveNets cg vec.inputs fault mc.stimulusNets
    (Golden.driveNets cg vec.inputs fault cg.piNets fun _ => false)

variable {i : CompiledNetIndex}

theorem modeStart_apply {vec : TestVector} {fault : Option CompactFault}
    (hi : i ∈ g.cg.piNets ∨ i ∈ mc.stimulusNets) : modeStart g.cg vec fault mc i =
      Golden.force fault i (vec.inputs.getD (g.cg.yosysOf i) false) := by
  rw [modeStart, Golden.driveNets_apply, Golden.driveNets_apply]
  by_cases hstim : i ∈ mc.stimulusNets
  · rw [if_pos hstim]
  · rw [if_neg hstim, if_pos (hi.resolve_right hstim)]

theorem modeStart_of_not_mem {vec : TestVector} {fault : Option CompactFault}
    (hi : ¬ (i ∈ g.cg.piNets ∨ i ∈ mc.stimulusNets)) : modeStart g.cg vec fault mc i = false := by
  rw [not_or] at hi
  rw [modeStart, Golden.driveNets_apply, Golden.driveNets_apply, if_neg hi.2, if_neg hi.1]

/-- **The skipped nodes can be left out of the pass.** -/
theorem runCombMode_eq_run (hone : g.cg.SingleDriver) (hmc : g.ModeInv mc) (vec : TestVector)
    (fault : Option CompactFault) :
    Golden.runCombMode g.cg vec fault mc =
      Assign.run ((Golden.nodeAssigns mc.wbrAction fault g.cg.nodes).filter
        fun a => ¬ Skipped g mc a.out) (modeStart g.cg vec fault mc) := by
  show Golden.evaluateCombinational g.cg (modeStart g.cg vec fault mc) fault (some mc) = _
  rw [evaluateMode_eq_run]
  refine Assign.run_filter (c := modeStart g.cg vec fault mc) ?_ ?_ fun _ _ _ => rfl
  · intro a ha hskip y hy
    obtain ⟨n, hn, rfl⟩ := List.mem_map.1 ha
    have hskip : Skipped g mc n.out := not_not.1 (of_decide_eq_false hskip)
    have hn' := (List.mem_filter.1 hn).1
    obtain ⟨hw, hact⟩ := of_decide_eq_true ((skipped_iff_goldenFree hone hn').1 hskip)
    have htype : n.type = .WBR_IN ∨ n.type = .WBR_OUT := hw
    have hvalue : Golden.modeValue mc.wbrAction y n = y n.out := by
      rw [Golden.modeValue, if_pos htype, hact]
    have hy : y n.out = modeStart g.cg vec fault mc n.out := hy
    show Golden.force fault n.out (Golden.modeValue mc.wbrAction y n) = modeStart g.cg vec fault mc n.out
    rw [hvalue, hy, modeStart_apply (.inr (hmc.controls _ hact)), Golden.force_force]
  · intro a _ hpa b _ hpb heq
    rw [heq, hpa] at hpb
    exact Bool.false_ne_true hpb

/-- **The golden pass in a mode solves its forced equations**, and leaves the other
nets as the stimulus set them. -/
theorem runCombMode_solves (hord : g.cg.GatesInOrder) (hone : g.cg.SingleDriver)
    (hmc : g.ModeInv mc) (vec : TestVector) (fault : Option CompactFault) :
    (∀ n ∈ boundNodes g.cg (goldenFree mc), Golden.runCombMode g.cg vec fault mc n.out =
      Golden.force fault n.out
        (Golden.modeValue mc.wbrAction (Golden.runCombMode g.cg vec fault mc) n)) ∧
    ∀ i ∉ Assign.outs (goldenAssigns g.cg mc),
      Golden.runCombMode g.cg vec fault mc i = modeStart g.cg vec fault mc i := by
  have hmem : ∀ a, a ∈ (Golden.nodeAssigns mc.wbrAction fault g.cg.nodes).filter
      (fun a => ¬ Skipped g mc a.out) ↔ ∃ n ∈ boundNodes g.cg (goldenFree mc),
        Golden.nodeAssign mc.wbrAction fault n = a := by
    intro a
    simp only [Golden.nodeAssigns, List.mem_filter, List.mem_map, decide_eq_true_eq,
      mem_boundNodes]
    constructor
    · rintro ⟨⟨n, ⟨hn, hsrc⟩, rfl⟩, hskip⟩
      exact ⟨n, ⟨hn, hsrc, Bool.eq_false_iff.2 fun hfree =>
        hskip ((skipped_iff_goldenFree hone hn).2 hfree)⟩, rfl⟩
    · rintro ⟨n, ⟨hn, hsrc, hfree⟩, rfl⟩
      refine ⟨⟨n, ⟨hn, hsrc⟩, rfl⟩, fun hskip => ?_⟩
      exact Bool.eq_false_iff.1 hfree ((skipped_iff_goldenFree hone hn).1 hskip)
  have houts : ∀ i, i ∈ Assign.outs ((Golden.nodeAssigns mc.wbrAction fault g.cg.nodes).filter
      fun a => ¬ Skipped g mc a.out) ↔ i ∈ Assign.outs (goldenAssigns g.cg mc) := by
    intro i
    rw [Assign.mem_outs, goldenAssigns, mem_outs_wrapperAssigns]
    constructor
    · rintro ⟨a, ha, rfl⟩
      obtain ⟨n, hn, rfl⟩ := (hmem a).1 ha
      exact ⟨n, hn, rfl⟩
    · rintro ⟨n, hn, rfl⟩
      exact ⟨_, (hmem _).2 ⟨n, hn, rfl⟩, rfl⟩
  rw [runCombMode_eq_run hone hmc]
  constructor
  · intro n hn
    refine Assign.run_eq_fn (a := Golden.nodeAssign mc.wbrAction fault n) ?_ ?_ _ ((hmem _).2 ⟨n, hn, rfl⟩)
    · refine ((fresh_mode hord mc fault).filter fun a _ hD => by simpa using hD.2).mono ?_
      intro i hi
      obtain ⟨m, hm, rfl⟩ := mem_outs_wrapperAssigns.1 ((houts i).1 hi)
      obtain ⟨hm, hsrc, hfree⟩ := mem_boundNodes.1 hm
      exact ⟨⟨m, hm, hsrc, rfl⟩, fun hskip =>
        Bool.eq_false_iff.1 hfree ((skipped_iff_goldenFree hone hm).1 hskip)⟩
    · have hnd : (Assign.outs (Golden.nodeAssigns mc.wbrAction fault g.cg.nodes)).Nodup := by
        rw [Assign.outs, Golden.nodeAssigns, List.map_map]
        exact hone.sublist (List.filter_sublist.map SimNode.out)
      exact hnd.sublist (List.filter_sublist.map Assign.out)
  · exact fun i hi => Assign.run_of_not_mem (mt (houts i).1 hi) _

/-- A net without an equation in a mode is an input or a stimulus net. -/
theorem Complete.stimulated (h : g.Complete) (hmc : g.ModeInv mc) (hi : i < g.cg.netCount)
    (hout : i ∉ Assign.outs (goldenAssigns g.cg mc)) :
    i ∈ g.cg.piNets ∨ i ∈ wbrStimulusNets mc := by
  by_cases hgate : g.cg.GateDriven i
  · obtain ⟨n, hn, hsrc, rfl⟩ := hgate
    have hfree : goldenFree mc n = true := by
      by_contra hnot
      exact hout (mem_outs_wrapperAssigns.2
        ⟨n, mem_boundNodes.2 ⟨hn, hsrc, Bool.eq_false_iff.2 hnot⟩, rfl⟩)
    have hact := (of_decide_eq_true hfree).2
    exact .inr (List.mem_filter.2 ⟨hmc.controls _ hact, by simpa using hact⟩)
  · exact .inl (h.mem_piNets hi hgate)

theorem mem_stimulusNets (hi : i ∈ g.cg.piNets ∨ i ∈ wbrStimulusNets mc) :
    i ∈ g.cg.piNets ∨ i ∈ mc.stimulusNets :=
  hi.imp_right fun hi => (List.mem_filter.1 hi).1

/-- **The golden passes in a mode are a pair of machines.** -/
theorem Complete.runCombMode_testPair (h : g.Complete) (hmc : g.ModeInv mc)
    (hff : ∀ i, mc.wbrAction i ≠ .DRIVE_FROM_FF) (hgap : ∀ n ∈ g.cg.nodes, n.IsWrapper → n.GapFree)
    (vec : TestVector) {f : CompactFault} (hexcl : f.exclusion = .NONE)
    (hf : f.netIndex < g.cg.netCount) :
    Assign.TestPair (goldenAssigns g.cg mc) f.netIndex f.value
      (Golden.runCombMode g.cg vec none mc) (Golden.runCombMode g.cg vec (some f) mc) := by
  obtain ⟨hgood, hgbase⟩ := runCombMode_solves h.gatesInOrder h.single hmc vec none
  obtain ⟨hfaulty, hfbase⟩ := runCombMode_solves h.gatesInOrder h.single hmc vec (some f)
  refine ⟨fun a ha => ?_, fun a ha => ?_, ?_, fun i hi hne => ?_⟩
  · obtain ⟨n, hn, rfl⟩ := mem_wrapperAssigns.1 ha
    obtain ⟨hn', -, hfree⟩ := mem_boundNodes.1 hn
    rw [wrapperAssign_out, hgood n hn, Golden.force_none,
      Golden.modeValue_eq_fn hff (hgap n hn') hfree]
  · obtain ⟨ha, hne⟩ := Assign.mem_dropOut.1 ha
    obtain ⟨n, hn, rfl⟩ := mem_wrapperAssigns.1 ha
    obtain ⟨hn', -, hfree⟩ := mem_boundNodes.1 hn
    rw [wrapperAssign_out] at hne ⊢
    rw [hfaulty n hn, Golden.force_of_ne (Ne.symm hne),
      Golden.modeValue_eq_fn hff (hgap n hn') hfree]
  · by_cases hout : f.netIndex ∈ Assign.outs (goldenAssigns g.cg mc)
    · obtain ⟨n, hn, heq⟩ := mem_outs_wrapperAssigns.1 hout
      rw [← heq, hfaulty n hn, heq, Golden.force_self hexcl]
    · rw [hfbase _ hout, modeStart_apply (mem_stimulusNets (h.stimulated hmc hf hout)),
        Golden.force_self hexcl]
  · rw [hfbase i hi, hgbase i hi]
    by_cases hstim : i ∈ g.cg.piNets ∨ i ∈ mc.stimulusNets
    · rw [modeStart_apply hstim, modeStart_apply hstim, Golden.force_of_ne (Ne.symm hne),
        Golden.force_none]
    · rw [modeStart_of_not_mem hstim, modeStart_of_not_mem hstim]

end CachedGraph

/-! ## Tests and vectors -/

/-- In a mode, net `i` is an input of the node that drives net `t`: the node is
neither skipped nor an input wrapper at `0`. -/
def CompiledSimGraph.FeedsIn (cg : CompiledSimGraph) (mc : ModeConfig) (i t : CompiledNetIndex) :
    Prop :=
  ∃ n ∈ cg.nodes, i ∈ n.inputNets ∧ n.out = t ∧
    ¬ (n.IsWrapper ∧ mc.wbrAction t = .SKIP_STIMULUS) ∧
    ¬ (n.type = .WBR_IN ∧ mc.wbrAction t = .FORCE_ZERO)

/-- An output wrapper drives the net to `0`. -/
def CompiledSimGraph.ForcedOutput (cg : CompiledSimGraph) (mc : ModeConfig) (i : CompiledNetIndex) :
    Prop :=
  ∃ n ∈ cg.nodes, n.type = .WBR_OUT ∧ n.out = i ∧ mc.wbrAction i = .FORCE_ZERO

/-- The verdict of `verify_fault_vector` in a mode. -/
def Golden.detectsMode (cg : CompiledSimGraph) (vec : TestVector) (fault : CompactFault)
    (mc : ModeConfig) : Bool :=
  isDetectedMode cg (simulateFaultFreeMode cg vec mc) (simulateWithFaultMode cg vec fault mc) mc

theorem CachedGraph.ModeInv.detectsMode_eq {g : CachedGraph} {mc : ModeConfig} (hmc : g.ModeInv mc)
    (vec : TestVector) {f : CompactFault} (hexcl : f.exclusion = .NONE) :
    Golden.detectsMode g.cg vec f mc = mc.observableNets.any fun o =>
      Golden.runCombMode g.cg vec none mc o != Golden.runCombMode g.cg vec (some f) mc o := by
  rw [Golden.detectsMode, Golden.simulateFaultFreeMode, Golden.simulateWithFaultMode, if_pos hexcl]
  exact g.isDetectedMode_snapshot hmc _ _

namespace Atpg

section Modes

variable {g : CachedGraph} {mode : TestMode} {mc : ModeConfig}

/-- The solver leaves free what the golden reference skips. -/
theorem solverFree_eq (hact : g.ModeActions mode mc) (hmc : g.ModeInv mc) (n : SimNode) :
    solverFree mc n = goldenFree mc n := by
  rw [solverFree, goldenFree, Bool.eq_iff_iff, Bool.and_eq_true, decide_eq_true_iff,
    decide_eq_true_iff, solverZero, Bool.not_eq_true', decide_eq_false_iff_not, wbrStimulusNets,
    List.mem_filter, decide_eq_true_iff, hact.zero_iff]
  constructor
  · rintro ⟨-, hw, -, hskip⟩
    exact ⟨hw, hskip⟩
  · rintro ⟨hw, hskip⟩
    refine ⟨fun h => ?_, hw, hmc.controls _ hskip, hskip⟩
    rw [hskip] at h
    exact absurd h.2 (by decide)

/-- The solver forces to `0` what the golden reference does, output wrappers
apart. -/
theorem solverZero_eq (hact : g.ModeActions mode mc) {n : SimNode} (hn : n ∈ g.cg.nodes)
    (hout : ¬ g.cg.ForcedOutput mc n.out) : solverZero mc n = goldenZero mc n := by
  rw [solverZero, goldenZero, Bool.eq_iff_iff, decide_eq_true_iff, decide_eq_true_iff, hact.zero_iff]
  constructor
  · rintro ⟨htype, hzero⟩
    exact ⟨.inl htype, hzero⟩
  · rintro ⟨htype | htype, hzero⟩
    · exact ⟨htype, hzero⟩
    · exact absurd ⟨n, hn, htype, rfl, hzero⟩ hout

theorem feedsIn_of_solverAssigns (hact : g.ModeActions mode mc) (hmc : g.ModeInv mc)
    {i t : CompiledNetIndex} (h : Assign.Fans (solverAssigns g.cg mc) i t) :
    g.cg.FeedsIn mc i t := by
  obtain ⟨a, ha, hi, rfl⟩ := h
  obtain ⟨n, hn, rfl⟩ := mem_wrapperAssigns.1 ha
  obtain ⟨hn, -, hfree⟩ := mem_boundNodes.1 hn
  rw [solverFree_eq hact hmc] at hfree
  rw [wrapperAssign_out]
  refine ⟨n, hn, mem_inputNets_of_reads hi, rfl, of_decide_eq_false hfree, fun hzero => ?_⟩
  have hz : solverZero mc n = true := decide_eq_true ⟨hzero.1, (hact.zero_iff _).2 hzero.2⟩
  rw [wrapperAssign, if_pos hz] at hi
  exact List.not_mem_nil hi

theorem feedsIn_of_goldenAssigns {i t : CompiledNetIndex}
    (h : Assign.Fans (goldenAssigns g.cg mc) i t) : g.cg.FeedsIn mc i t := by
  obtain ⟨a, ha, hi, rfl⟩ := h
  obtain ⟨n, hn, rfl⟩ := mem_wrapperAssigns.1 ha
  obtain ⟨hn, -, hfree⟩ := mem_boundNodes.1 hn
  rw [wrapperAssign_out]
  refine ⟨n, hn, mem_inputNets_of_reads hi, rfl, of_decide_eq_false hfree, fun hzero => ?_⟩
  have hz : goldenZero mc n = true := decide_eq_true ⟨.inl hzero.1, hzero.2⟩
  rw [wrapperAssign, if_pos hz] at hi
  exact List.not_mem_nil hi

/-- The nets that feed an observation point of the mode which the net `f` feeds. -/
def sharedNets (cg : CompiledSimGraph) (mc : ModeConfig) (f : CompiledNetIndex) :
    Set CompiledNetIndex :=
  {i | ∃ o ∈ mc.observableNets, Relation.ReflTransGen (cg.FeedsIn mc) f o ∧
    Relation.ReflTransGen (cg.FeedsIn mc) i o}

/-- A difference of two machines on an observation point is on a net that the fault
feeds. -/
theorem mem_sharedNets {as : List (Assign CompiledNetIndex Bool)} {rank : CompiledNetIndex → ℕ}
    (hrank : Assign.RankedBy rank as) (hfans : ∀ i t, Assign.Fans as i t → g.cg.FeedsIn mc i t)
    {f o : CompiledNetIndex} {b : Bool} {v w : Values} (hpair : Assign.TestPair as f b v w)
    (ho : o ∈ mc.observableNets) (hne : v o ≠ w o) : o ∈ sharedNets g.cg mc f := by
  refine ⟨o, ho, ?_, .refl⟩
  by_contra hnot
  have hupper : Assign.IsUpper as f {t | Relation.ReflTransGen (g.cg.FeedsIn mc) f t} :=
    ⟨.refl, fun i hi t ht => hi.tail (hfans i t ht)⟩
  exact hne (hpair.eq_off_cone hrank hupper hnot).symm

variable (h : g.Complete) (hact : g.ModeActions mode mc) (hmc : g.ModeInv mc)
  (hgap : ∀ n ∈ g.cg.nodes, n.IsWrapper → n.GapFree) {f : CompactFault}
  (hexcl : f.exclusion = .NONE) (hf : f.netIndex < g.cg.netCount)
  (hsys : ∀ i ∈ sharedNets g.cg mc f.netIndex, ¬ g.cg.ForcedOutput mc i) {i : CompiledNetIndex}

include hact hmc in
theorem mem_outs_golden_iff :
    i ∈ Assign.outs (goldenAssigns g.cg mc) ↔ i ∈ Assign.outs (solverAssigns g.cg mc) := by
  have hfree : solverFree mc = goldenFree mc := funext (solverFree_eq hact hmc)
  rw [goldenAssigns, solverAssigns, mem_outs_wrapperAssigns, mem_outs_wrapperAssigns, hfree]

include h hact hmc in
/-- A stimulus net of the mode has no equation. -/
theorem stimulus_not_mem_outs (hi : i ∈ wbrStimulusNets mc) :
    i ∉ Assign.outs (solverAssigns g.cg mc) := by
  intro hout
  obtain ⟨n, hn, rfl⟩ := mem_outs_wrapperAssigns.1 hout
  obtain ⟨hn, -, hfree⟩ := mem_boundNodes.1 hn
  rw [solverFree_eq hact hmc] at hfree
  have hskip : mc.wbrAction n.out = .SKIP_STIMULUS := of_decide_eq_true (List.mem_filter.1 hi).2
  obtain ⟨m, hm, htype, heq⟩ := hact.skip _ hskip
  obtain rfl := h.single.eq hm hn heq
  refine of_decide_eq_false hfree ⟨?_, hskip⟩
  cases mode
  · exact .inl htype
  · exact .inl htype
  · exact .inr htype

theorem lt_of_mem_sharedNets (hobs : ∀ o ∈ mc.observableNets, o < g.cg.netCount)
    (hi : i ∈ sharedNets g.cg mc f.netIndex) : i < g.cg.netCount := by
  obtain ⟨o, ho, -, hpath⟩ := hi
  rcases Relation.ReflTransGen.cases_head hpath with rfl | ⟨t, ⟨n, hn, hread, -⟩, -⟩
  · exact hobs _ ho
  · exact g.reads_lt_netCount hn hread

variable {vec : TestVector}

include h hact hmc hgap hexcl hf hsys in
/-- **The solver's machines and the golden passes agree on the shared nets**, for
the same stimulus. -/
theorem eq_runCombMode {v w : Values}
    (hpair : Assign.TestPair (solverAssigns g.cg mc) f.netIndex f.value v w)
    (hobs : ∀ o ∈ mc.observableNets, o < g.cg.netCount)
    (hin : ∀ i, i ∈ g.cg.piNets ∨ i ∈ wbrStimulusNets mc →
      v i = vec.inputs.getD (g.cg.yosysOf i) false) (hi : i ∈ sharedNets g.cg mc f.netIndex) :
    v i = Golden.runCombMode g.cg vec none mc i ∧ w i = Golden.runCombMode g.cg vec (some f) mc i := by
  have hgolden := h.runCombMode_testPair hmc hact.notFf hgap vec hexcl hf
  have hbase := (CachedGraph.runCombMode_solves h.gatesInOrder h.single hmc vec none).2
  refine hpair.eq_of_shared hgolden (rankedBy_wrapperAssigns h.rankedBy) ?_ ?_
    (fun _ _ hout => mt (mem_outs_golden_iff hact hmc).1 hout) (fun j hj hout => ?_) hi
  · rintro a ha ⟨o, ho, hfo, hpath⟩ j hj
    exact ⟨o, ho, hfo, .head (feedsIn_of_solverAssigns hact hmc ⟨a, ha, hj, rfl⟩) hpath⟩
  · intro a ha hout
    obtain ⟨n, hn, rfl⟩ := mem_wrapperAssigns.1 ha
    rw [wrapperAssign_out] at hout
    obtain ⟨hn, hsrc, hfree⟩ := mem_boundNodes.1 hn
    refine mem_wrapperAssigns.2 ⟨n, mem_boundNodes.2 ⟨hn, hsrc, ?_⟩, ?_⟩
    · rwa [← solverFree_eq hact hmc]
    · rw [wrapperAssign, wrapperAssign, solverZero_eq hact hn (hsys _ hout)]
  · have hout' := mt (mem_outs_golden_iff hact hmc).1 hout
    have hstim := h.stimulated hmc (lt_of_mem_sharedNets hobs hj) hout'
    rw [hbase j hout', CachedGraph.modeStart_apply (CachedGraph.mem_stimulusNets hstim),
      Golden.force_none, hin j hstim]

include h hact hmc hgap hexcl hf hsys in
/-- A test of the encoded system is detected by every vector with its inputs. -/
theorem IsSystemTest.detectsMode {pis : List AtpgPiInfo} {blocked : List (List Char)} {v w : Values}
    (ht : IsSystemTest (solverAssigns g.cg mc) pis f blocked mc.observableNets v w)
    (hobs : ∀ o ∈ mc.observableNets, o < g.cg.netCount)
    (hin : ∀ i, i ∈ g.cg.piNets ∨ i ∈ wbrStimulusNets mc →
      v i = vec.inputs.getD (g.cg.yosysOf i) false) :
    Golden.detectsMode g.cg vec f mc = true := by
  rw [hmc.detectsMode_eq vec hexcl, List.any_eq_true]
  obtain ⟨o, ho, hne⟩ := ht.differs
  have hmem := mem_sharedNets (rankedBy_wrapperAssigns h.rankedBy)
    (fun _ _ => feedsIn_of_solverAssigns hact hmc) ht.pair ho hne
  obtain ⟨hgood, hfaulty⟩ := eq_runCombMode h hact hmc hgap hexcl hf hsys ht.pair hobs hin hmem
  exact ⟨o, ho, by simpa [← hgood, ← hfaulty] using hne⟩

include h hact hmc hgap hexcl hf hsys in
/-- A vector that is detected gives a test of the encoded system. -/
theorem exists_isSystemTest {pis : List AtpgPiInfo} (hpis : ∀ pi ∈ pis, pi.compiled ∈ g.cg.piNets)
    {blocked : List (List Char)} (hobs : ∀ o ∈ mc.observableNets, o < g.cg.netCount)
    (hdet : Golden.detectsMode g.cg vec f mc = true)
    (hkey : keyOf (pis.map fun pi => vec.inputs.getD (g.cg.yosysOf pi.compiled) false) ∉ blocked) :
    ∃ v w, IsSystemTest (solverAssigns g.cg mc) pis f blocked mc.observableNets v w := by
  rw [hmc.detectsMode_eq vec hexcl, List.any_eq_true] at hdet
  obtain ⟨o, ho, hne⟩ := hdet
  have hrank : Assign.RankedBy g.rank (solverAssigns g.cg mc) := rankedBy_wrapperAssigns h.rankedBy
  have hnd : (Assign.outs (solverAssigns g.cg mc)).Nodup := nodup_outs_wrapperAssigns h.single
  have hgolden := h.runCombMode_testPair hmc hact.notFf hgap vec hexcl hf
  obtain ⟨v, hv, hbase⟩ := Assign.exists_solves hnd hrank fun i =>
    vec.inputs.getD (g.cg.yosysOf i) false
  obtain ⟨w, hpair⟩ := Assign.exists_faulty hnd hrank hv f.netIndex f.value
  have hin : ∀ i, i ∈ g.cg.piNets ∨ i ∈ wbrStimulusNets mc →
      v i = vec.inputs.getD (g.cg.yosysOf i) false := by
    rintro i (hi | hi)
    · exact hbase i fun hout => h.single.not_gateDriven h.inputs hi (gateDriven_of_mem_outs hout)
    · exact hbase i (stimulus_not_mem_outs h hact hmc hi)
  have hmem := mem_sharedNets (rankedBy_wrapperAssigns h.rankedBy)
    (fun _ _ => feedsIn_of_goldenAssigns) hgolden ho (by simpa using hne)
  obtain ⟨hgood, hfaulty⟩ := eq_runCombMode h hact hmc hgap hexcl hf hsys hpair hobs hin hmem
  refine ⟨v, w, hpair, ?_, o, ho, ?_⟩
  · rwa [List.map_congr_left fun pi hmem => hin _ (.inl (hpis pi hmem))]
  · rw [hgood, hfaulty]
    simpa using hne

/-- The inputs of a mode are nets of the netlist. -/
theorem stemInputs_modeInputs (hact : g.ModeActions mode mc) :
    StemInputs g (modeInputs g.cg (orderedPis g.parsed g.cg) mc) := by
  intro pi hpi
  rcases List.mem_append.1 hpi with hpi | hpi
  · exact stemInputs_orderedPis g pi hpi
  · obtain ⟨i, hi, rfl⟩ := List.mem_map.1 hpi
    exact ⟨hact.stem i (of_decide_eq_true (List.mem_filter.1 hi).2), rfl⟩

/-- Every input and every stimulus net is an input of the mode. -/
theorem exists_mem_modeInputs (hi : i ∈ g.cg.piNets ∨ i ∈ wbrStimulusNets mc) :
    ∃ pi ∈ modeInputs g.cg (orderedPis g.parsed g.cg) mc, pi.compiled = i := by
  rcases hi with hi | hi
  · obtain ⟨pi, hpi, rfl⟩ := exists_mem_orderedPis hi
    exact ⟨pi, List.mem_append_left _ hpi, rfl⟩
  · exact ⟨_, List.mem_append_right _ (List.mem_map_of_mem hi), rfl⟩

end Modes

/-- **In a wrapper mode the solver agrees with the golden reference**, as long as no
output wrapper that the mode drives to `0` feeds an observation point that the fault
feeds.  `UNSAT` means that no unblocked assignment of the inputs and of the wrapper
stimulus is detected, and the map that comes with `SAT` is unblocked and detected. -/
theorem solveStuckAtFaultMode_iff_detects (solver : SatSolver ℕ) (g : CachedGraph)
    (hcomb : g.cg.Combinational) (hac : g.ng.Acyclic)
    (hdriven : ∀ i < g.cg.netCount, g.cg.Driven i) (hone : g.cg.SingleDriver)
    (hpi : g.cg.InputsDriven) (hwrap : g.cg.TransparentWrappers) (mode : TestMode)
    (hmode : mode ≠ .FUNCTIONAL)
    (hnames : ((modeInputs g.cg (orderedPis g.parsed g.cg) (buildModeConfig g.cg mode)).map
      AtpgPiInfo.name).Nodup)
    (f : CompactFault) (hf : f.netIndex < g.cg.netCount) (hexcl : f.exclusion = .NONE)
    (hsys : ∀ o ∈ (buildModeConfig g.cg mode).observableNets,
      Relation.ReflTransGen (g.cg.FeedsIn (buildModeConfig g.cg mode)) f.netIndex o →
      ∀ i, g.cg.ForcedOutput (buildModeConfig g.cg mode) i →
        ¬ Relation.ReflTransGen (g.cg.FeedsIn (buildModeConfig g.cg mode)) i o)
    (options : SatSolveOptions)
    (hobs : options.coneRestrict = true ∨ (buildModeConfig g.cg mode).observableNets ≠ [])
    (hok : KeysOk (orderedPis g.parsed g.cg).length options.blockedPatterns) :
    ∃ r, solveStuckAtFaultMode solver g.cg (orderedPis g.parsed g.cg) f options
        (buildModeConfig g.cg mode) = .ok r ∧
      (r.result = .UNSAT ↔ ∀ x : YosysNetID → Bool,
        keyOf ((orderedPis g.parsed g.cg).map fun pi => x pi.yosysId) ∉ options.blockedPatterns →
        Golden.detectsMode g.cg (piVector (modeInputs g.cg (orderedPis g.parsed g.cg)
          (buildModeConfig g.cg mode)) fun pi => x pi.yosysId) f (buildModeConfig g.cg mode) =
            false) ∧
      (r.result = .SAT → ∃ m, r.out = some m ∧
        patternKey m (orderedPis g.parsed g.cg) ∉ options.blockedPatterns ∧
        Golden.detectsMode g.cg (mapVector (modeInputs g.cg (orderedPis g.parsed g.cg)
          (buildModeConfig g.cg mode)) m) f (buildModeConfig g.cg mode) = true) := by
  have h : g.Complete := ⟨⟨hcomb, hac, hone⟩, hpi, hdriven⟩
  have hact := CachedGraph.modeActions_buildModeConfig hone hwrap hmode
  have hmc := g.modeInv_buildModeConfig mode
  have hmode' : (buildModeConfig g.cg mode).mode ≠ .FUNCTIONAL := by
    rwa [CachedGraph.mode_buildModeConfig]
  generalize buildModeConfig g.cg mode = mc at hact hmc hmode' hnames hsys hobs ⊢
  have hlt : ∀ o ∈ mc.observableNets, o < g.cg.netCount := by
    intro o ho
    obtain ⟨y, hy⟩ := hmc.stems o ho
    exact lt_of_yosysToCompiled hy
  have hshared : ∀ i ∈ sharedNets g.cg mc f.netIndex, ¬ g.cg.ForcedOutput mc i := by
    rintro i ⟨o, ho, hfo, hio⟩ hforced
    exact hsys o ho hfo i hforced hio
  have hpis : ∀ pi ∈ orderedPis g.parsed g.cg, pi.compiled ∈ g.cg.piNets :=
    fun pi hpi => (mem_orderedPis hpi).1
  have hstems : StemInputs g (modeInputs g.cg (orderedPis g.parsed g.cg) mc) :=
    stemInputs_modeInputs hact
  have hfree : ∀ i ∈ wbrStimulusNets mc, i ∉ Assign.outs (solverAssigns g.cg mc) :=
    fun i hi => stimulus_not_mem_outs h hact hmc hi
  obtain ⟨S, hcov⟩ : ∃ S, Covers g.cg.gateAssigns f.netIndex (OfPi (orderedPis g.parsed g.cg))
      mc.observableNets
      (buildConeMasks g.cg f.netIndex mc.observableNets options.coneRestrict) S := by
    cases hcone : options.coneRestrict with
    | true => exact ⟨_, covers_cone h.toEquational hf _⟩
    | false =>
      exact ⟨_, covers_all h (hobs.resolve_left (by rw [hcone]; exact Bool.false_ne_true)) hlt f⟩
  obtain ⟨r, hr, hans⟩ := exists_solveStuckAtFaultMode h hmode' hpis hfree hlt hf solver options hcov hok
  -- a vector that holds the values of a test is detected
  have hreplay : ∀ v w, IsSystemTest (solverAssigns g.cg mc) (orderedPis g.parsed g.cg) f
      options.blockedPatterns mc.observableNets v w → ∀ value : AtpgPiInfo → Bool,
      (∀ pi ∈ modeInputs g.cg (orderedPis g.parsed g.cg) mc, value pi = v pi.compiled) →
      Golden.detectsMode g.cg (piVector (modeInputs g.cg (orderedPis g.parsed g.cg) mc) value) f mc =
        true := by
    intro v w ht value hvalue
    refine ht.detectsMode h hact hmc hwrap.gapFree hexcl hf hshared hlt fun i hi => ?_
    obtain ⟨pi, hpi, rfl⟩ := exists_mem_modeInputs hi
    exact (getD_piVector hstems hvalue hpi).symm
  refine ⟨r, hr, ⟨fun hunsat x hkey => ?_, fun hnone => ?_⟩, fun hsat => ?_⟩
  · by_contra hdet
    have hkey' : keyOf ((orderedPis g.parsed g.cg).map fun pi =>
        (piVector (modeInputs g.cg (orderedPis g.parsed g.cg) mc) fun pi => x pi.yosysId).inputs.getD
          (g.cg.yosysOf pi.compiled) false) ∉ options.blockedPatterns := by
      rwa [List.map_congr_left fun pi hpi => ?_]
      rw [getD_piVector hstems (v := fun i => x (g.cg.yosysOf i))
        (fun pi hpi => by rw [← (hstems pi hpi).2]) (List.mem_append_left _ hpi),
        (mem_orderedPis hpi).2]
    obtain ⟨v, w, ht⟩ := exists_isSystemTest h hact hmc hwrap.gapFree hexcl hf hshared hpis hlt
      (Bool.not_eq_false _ ▸ hdet) hkey'
    exact hans.unsat hunsat v w ht
  · refine hans.known.resolve_left fun hsat => ?_
    obtain ⟨v, w, ht, -⟩ := hans.sat hsat
    obtain ⟨x, hx⟩ := exists_netValues hstems v
    refine absurd (hreplay v w ht _ hx) ?_
    rw [hnone x ?_]
    · exact Bool.false_ne_true
    · rw [List.map_congr_left fun pi hpi => hx pi (List.mem_append_left _ hpi)]
      exact ht.unblocked
  · obtain ⟨v, w, ht, hout⟩ := hans.sat hsat
    refine ⟨_, hout, ?_, hreplay v w ht _ fun pi hpi => getD_emitValues hnames v hpi⟩
    have hsub : orderedPis g.parsed g.cg ⊆ modeInputs g.cg (orderedPis g.parsed g.cg) mc :=
      List.subset_append_left _ _
    rw [patternKey_emitValues_of_subset hsub hnames]
    exact ht.unblocked

/-- A buffer between an input and an output wrapper. -/
def wrappedBuffer : CachedGraph :=
  .load (.ofCells [("a", 2)] [("y", 5)]
      [("i", .ofPins "WBRIN" [("FROM_SYS", 2), ("TO_CORE", 3)]),
       ("b", .ofPins "BUF" [("A", 3), ("Y", 4)]),
       ("o", .ofPins "WBROUT" [("FROM_CORE", 4), ("TO_SYS", 5)])])
    smallCells "fail" ∅ (by decide +kernel) (by decide +kernel)

theorem wrappedBuffer_solveStuckAtFaultMode_iff_detects :
    (buildModeConfig wrappedBuffer.cg .INTEST).safeZeroNets ≠ [] ∧
    ∃ r, solveStuckAtFaultMode .backtrack wrappedBuffer.cg
        (orderedPis wrappedBuffer.parsed wrappedBuffer.cg) { netIndex := 1 }
        { blockedPatterns := [['0']] } (buildModeConfig wrappedBuffer.cg .INTEST) = .ok r ∧
      (r.result = .UNSAT ↔ ∀ x : YosysNetID → Bool,
        keyOf ((orderedPis wrappedBuffer.parsed wrappedBuffer.cg).map fun pi => x pi.yosysId) ∉
          [['0']] →
        Golden.detectsMode wrappedBuffer.cg (piVector (modeInputs wrappedBuffer.cg
          (orderedPis wrappedBuffer.parsed wrappedBuffer.cg)
          (buildModeConfig wrappedBuffer.cg .INTEST)) fun pi => x pi.yosysId) { netIndex := 1 }
          (buildModeConfig wrappedBuffer.cg .INTEST) = false) ∧
      (r.result = .SAT → ∃ m, r.out = some m ∧
        patternKey m (orderedPis wrappedBuffer.parsed wrappedBuffer.cg) ∉ [['0']] ∧
        Golden.detectsMode wrappedBuffer.cg (mapVector (modeInputs wrappedBuffer.cg
          (orderedPis wrappedBuffer.parsed wrappedBuffer.cg)
          (buildModeConfig wrappedBuffer.cg .INTEST)) m) { netIndex := 1 }
          (buildModeConfig wrappedBuffer.cg .INTEST) = true) := by
  refine ⟨by decide +kernel, solveStuckAtFaultMode_iff_detects .backtrack wrappedBuffer
    (by decide +kernel) (wrappedBuffer.levelized.acyclic_iff.2 (by decide +kernel))
    (by decide +kernel) (by decide +kernel) (by decide +kernel)
    ⟨by decide +kernel, by decide +kernel⟩ .INTEST (by decide) (by decide +kernel)
    { netIndex := 1 } (by decide +kernel) rfl ?_ { blockedPatterns := [['0']] }
    (.inr (by decide +kernel)) (by decide +kernel)⟩
  rintro o ho - i ⟨n, hn, htype, rfl, -⟩ hpath
  -- the system side of the output wrapper is read by no node
  have hunread : ∀ n ∈ wrappedBuffer.cg.nodes, n.type = .WBR_OUT →
      n.out ∉ (buildModeConfig wrappedBuffer.cg .INTEST).observableNets ∧
      ∀ m ∈ wrappedBuffer.cg.nodes, n.out ∉ m.inputNets := by decide +kernel
  rcases Relation.ReflTransGen.cases_head hpath with rfl | ⟨t, ⟨m, hm, hread, -⟩, -⟩
  · exact (hunread n hn htype).1 ho
  · exact (hunread n hn htype).2 m hm hread

/-- A core output `x` that returns to the core through its wrapper cell. -/
def loopedWrapper : CachedGraph :=
  .load (.ofCells [("x", 2)] [("y", 5)]
      [("w1", .ofPins "WBROUT" [("FROM_CORE", 2), ("TO_SYS", 3)]),
       ("b", .ofPins "BUF" [("A", 3), ("Y", 4)]),
       ("w2", .ofPins "WBROUT" [("FROM_CORE", 4), ("TO_SYS", 5)])])
    smallCells "fail" ∅ (by decide +kernel) (by decide +kernel)

/-- The verdict of the mode-aware solver, and that of the golden reference on its
map. -/
def replayMode (g : CachedGraph) (f : CompactFault) (mode : TestMode) :
    Option (SatSolveResult × Option Bool) :=
  let mc := buildModeConfig g.cg mode
  let pis := orderedPis g.parsed g.cg
  ((solveStuckAtFaultMode .backtrack g.cg pis f { coneRestrict := true } mc).toOption).map fun r =>
    (r.result, r.out.map fun m =>
      Golden.detectsMode g.cg (mapVector (modeInputs g.cg pis mc) m) f mc)

/-- In `INTEST` the net between the two wrapper cells is `0` in the golden
reference and equal to `x` in the clauses: the solver has a test of its stuck-at-0
fault, which no vector detects. -/
theorem loopedWrapper_intest : loopedWrapper.cg.Combinational ∧ loopedWrapper.ng.Acyclic ∧
    (∀ i < loopedWrapper.cg.netCount, loopedWrapper.cg.Driven i) ∧
    loopedWrapper.cg.SingleDriver ∧ loopedWrapper.cg.TransparentWrappers ∧
    replayMode loopedWrapper { netIndex := 1 } .INTEST = some (.SAT, some false) :=
  ⟨by decide +kernel, loopedWrapper.levelized.acyclic_iff.2 (by decide +kernel), by decide +kernel,
    by decide +kernel, ⟨by decide +kernel, by decide +kernel⟩, by decide +kernel⟩

end Atpg

end FaultFlow
