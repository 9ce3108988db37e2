/-
# A lane does not depend on its batch

The golden reference is the machine of a lane where the used slots of a gate come first and the
nets settle in order (`LaneAgreement`).  Between two batches nothing of that is needed: lanes
that force the same values (`Twins`) stay equal over a whole run, whatever the graph, the mode
and the other lanes (`runCycles_twins`).

So the verdict on a fault of a batch is the verdict on the fault alone (`lane_simulateBatch_alone`,
`lane_simulateBatchMode_alone`).
-/

import FaultFlow.Sim.SequenceAgreement

namespace FaultFlow

open Lib

/-- The batch that the graders build of a list of faults: the first in lane `1`, the next in
lane `2`, and so on. -/
def FaultBatch.ofFaults (faults : List CompactFault) : FaultBatch :=
  let lanes := faults.mapIdx fun k f => { f with bit := k + 1, saMask := laneMask (k + 1) }
  { faults := lanes, mask := lanes.foldl (fun m f => m ||| f.saMask) 0#64 }

namespace FaultBatch

/-- Fault `k` of a batch is in lane `k + 1`. -/
theorem getElem?_ofFaults (faults : List CompactFault) (k : ℕ) :
    (ofFaults faults).faults[k]? =
      faults[k]?.map fun f => { f with bit := k + 1, saMask := laneMask (k + 1) } := by
  rw [ofFaults, List.getElem?_mapIdx]

/-- It is the fault of that lane. -/
theorem inLane_ofFaults {faults : List CompactFault} {k : ℕ} {f : CompactFault}
    (h : faults[k]? = some f) :
    (ofFaults faults).InLane (k + 1) { f with bit := k + 1, saMask := laneMask (k + 1) } := by
  refine ⟨List.mem_of_getElem? (i := k) ?_, rfl⟩
  rw [getElem?_ofFaults, h, Option.map_some]

/-- At most 63 faults make a well-formed batch. -/
theorem wellFormed_ofFaults {faults : List CompactFault} (hopen : ∀ f ∈ faults, f.exclusion = .NONE)
    (hlen : faults.length ≤ 63) : (ofFaults faults).WellFormed := by
  have hlane : ∀ f ∈ (ofFaults faults).faults, ∃ k < 63, ∃ f' ∈ faults,
      f = { f' with bit := k + 1, saMask := laneMask (k + 1) } := by
    intro f hf
    obtain ⟨k, hk⟩ := List.getElem?_of_mem hf
    rw [getElem?_ofFaults] at hk
    obtain ⟨f', hf', rfl⟩ := Option.map_eq_some_iff.1 hk
    have := (List.getElem?_eq_some_iff.1 hf').1
    exact ⟨k, by omega, f', List.mem_of_getElem? hf', rfl⟩
  refine ⟨by simpa [ofFaults] using hlen, ?_, ?_, ?_, rfl⟩
  · intro f hf
    obtain ⟨k, -, f', hf', rfl⟩ := hlane f hf
    exact hopen f' hf'
  · intro f hf
    obtain ⟨k, hk, f', -, rfl⟩ := hlane f hf
    exact ⟨k + 1, by omega, by omega, rfl⟩
  · -- the masks are those of the lanes `1`, `2`, and so on
    have hmasks : (ofFaults faults).faults.map CompactFault.saMask =
        (List.range faults.length).map fun k => laneMask (k + 1) := by
      refine List.ext_getElem (by simp [ofFaults]) fun k _ _ => ?_
      simp [ofFaults]
    rw [hmasks]
    refine List.Nodup.map_on (fun k hk k' _ heq => ?_) List.nodup_range
    have := laneMask_injective (by have := List.mem_range.1 hk; omega) heq
    omega

end FaultBatch

namespace BitParallel

/-- Lanes of two batches that force the same values, as far as `σ` relates them. -/
structure Twins (σ : ℕ → ℕ → Prop) (b b' : FaultBatch) : Prop where
  left : b.WellFormed
  right : b'.WellFormed
  lt : ∀ {i j}, σ i j → i < 64 ∧ j < 64
  force : ∀ {i j}, σ i j → ∀ net x,
    Golden.force (b.laneFault i) net x = Golden.force (b'.laneFault j) net x

/-- Words that agree in related lanes. -/
def SameLanes (σ : ℕ → ℕ → Prop) (nv nv' : Words) : Prop :=
  ∀ i j, σ i j → ∀ n, lane i (nv n) = lane j (nv' n)

section Twins

variable {σ : ℕ → ℕ → Prop} {b b' : FaultBatch} {nv nv' : Words} {i j : ℕ} {w w' : Word}
  {ws ws' : ℕ → Word} {st st' : State}

/-- Twin lanes get the same value injected. -/
theorem Twins.injectWord (h : Twins σ b b') (hij : σ i j) (hw : lane i w = lane j w')
    (net : CompiledNetIndex) : lane i (injectWord b net w) = lane j (injectWord b' net w') := by
  rw [lane_injectWord h.left (h.lt hij).1, lane_injectWord h.right (h.lt hij).2, hw, h.force hij]

/-- Equal lanes on a net keep the words equal. -/
theorem SameLanes.update (hn : SameLanes σ nv nv') (hw : ∀ i j, σ i j → lane i w = lane j w')
    (net : CompiledNetIndex) :
    SameLanes σ (Function.update nv net w) (Function.update nv' net w') := by
  intro i j hij n
  by_cases hnet : n = net
  · subst hnet
    rw [Function.update_self, Function.update_self]
    exact hw i j hij
  · rw [Function.update_of_ne hnet, Function.update_of_ne hnet]
    exact hn i j hij n

/-- A node computes a lane from that lane of what it reads. -/
theorem SameLanes.modeWord (hn : SameLanes σ nv nv') (hij : σ i j) (hi : i < 64) (hj : j < 64)
    (action : CompiledNetIndex → WbrAction) (sn : SimNode) :
    lane i (modeWord action nv sn) = lane j (modeWord action nv' sn) := by
  have hslot : ∀ slot, lane i (gatherInput nv slot) = lane j (gatherInput nv' slot) := by
    intro slot
    cases slot with
    | none => rw [gatherInput, gatherInput, lane_zero, lane_zero]
    | some n => exact hn i j hij n
  have hplain : lane i (plainWord nv sn) = lane j (plainWord nv' sn) := by
    rw [plainWord_eq, plainWord_eq]
    refine evalBitwise_lane_congr sn.type hi hj fun k => ?_
    rw [lane_pick, lane_pick, List.map_map, List.map_map]
    congr 2
    exact funext fun slot => hslot slot
  unfold BitParallel.modeWord
  split
  · cases action sn.out with
    | SKIP_STIMULUS => exact hn i j hij _
    | FORCE_ZERO => rw [lane_zero, lane_zero]
    | DRIVE_FROM_FF => exact hslot _
    | PASS => exact hslot _
  · exact hplain

/-- One half of a cycle. -/
theorem Twins.settle (h : Twins σ b b') (cg : CompiledSimGraph) (mc : Option ModeConfig)
    (hws : ∀ i j, σ i j → ∀ k, lane i (ws k) = lane j (ws' k)) (hn : SameLanes σ nv nv') :
    SameLanes σ (settle cg b mc ws nv) (settle cg b' mc ws' nv') := by
  have hrun : ∀ (as bs : List (Assign CompiledNetIndex Word)),
      List.Forall₂ (fun a a' => a.out = a'.out ∧ ∀ x x', SameLanes σ x x' → ∀ i j, σ i j →
        lane i (a.fn x) = lane j (a'.fn x')) as bs →
      ∀ {x x' : Words}, SameLanes σ x x' → SameLanes σ (Assign.run as x) (Assign.run bs x') := by
    intro as bs hl
    induction hl with
    | nil => exact fun hx => hx
    | @cons a a' as bs ha _ ih =>
      intro x x' hx
      rw [Assign.run_cons, Assign.run_cons]
      refine ih ?_
      rw [Assign.step, Assign.step, ha.1]
      exact hx.update (ha.2 x x' hx) a'.out
  rw [settle_eq_run, settle_eq_run]
  refine hrun _ _ (List.rel_append ?_ ?_) hn
  · refine List.forall₂_map_left_iff.2 (List.forall₂_map_right_iff.2
      (List.forall₂_same.2 fun p _ => ⟨rfl, fun _ _ _ i j hij => ?_⟩))
    exact h.injectWord hij (hws i j hij p.2) p.1.out
  · refine List.forall₂_map_left_iff.2 (List.forall₂_map_right_iff.2
      (List.forall₂_same.2 fun sn _ => ⟨rfl, fun x x' hx i j hij => ?_⟩))
    exact h.injectWord hij (hx.modeWord hij (h.lt hij).1 (h.lt hij).2 _ sn) sn.out

/-- So do the rounds of settling. -/
theorem Twins.foldl_settle (h : Twins σ b b') (cg : CompiledSimGraph) (mc : Option ModeConfig)
    (hws : ∀ i j, σ i j → ∀ k, lane i (ws k) = lane j (ws' k)) (l : List ℕ)
    (hn : SameLanes σ nv nv') :
    SameLanes σ (l.foldl (fun nv _ => BitParallel.settle cg b mc ws nv) nv)
      (l.foldl (fun nv _ => BitParallel.settle cg b' mc ws' nv) nv') := by
  induction l generalizing nv nv' with
  | nil => exact hn
  | cons _ l ih => exact ih (h.settle cg mc hws hn)

/-- Inputs are the same in every lane. -/
theorem Twins.driveNets (h : Twins σ b b') (cg : CompiledSimGraph)
    (inputs : Std.TreeMap YosysNetID Bool) (nets : List CompiledNetIndex)
    (hn : SameLanes σ nv nv') :
    SameLanes σ (driveNets cg inputs nets nv) (driveNets cg inputs nets nv') := by
  intro i j hij n
  rw [driveNets_apply, driveNets_apply]
  split
  · rw [lane_broadcast (h.lt hij).1, lane_broadcast (h.lt hij).2]
  · exact hn i j hij n

/-- Injection keeps twin lanes equal. -/
theorem Twins.injectAll (h : Twins σ b b') (hn : SameLanes σ nv nv') :
    SameLanes σ (injectAll b nv) (injectAll b' nv') := by
  intro i j hij n
  rw [lane_injectAll h.left (h.lt hij).1, lane_injectAll h.right (h.lt hij).2, hn i j hij,
    h.force hij]

/-- A cycle activates the faults of twin lanes alike. -/
theorem Twins.cycleBatch (h : Twins σ b b') (cycle : TestCycle) :
    Twins σ (cycleBatch b cycle) (cycleBatch b' cycle) := by
  refine ⟨cycleBatch_wellFormed h.left cycle, cycleBatch_wellFormed h.right cycle, h.lt,
    fun {i j} hij net x => ?_⟩
  rw [cycleBatch_laneFault, cycleBatch_laneFault]
  split
  · exact h.force hij net x
  · rfl

/-- States that agree in related lanes. -/
structure TwinStates (σ : ℕ → ℕ → Prop) (st st' : State) : Prop where
  values : SameLanes σ st.values st'.values
  prevValues : SameLanes σ st.prevValues st'.prevValues
  ffStates : ∀ i j, σ i j → ∀ k, lane i (st.ffStates k) = lane j (st'.ffStates k)

/-- **One cycle keeps related lanes equal.** -/
theorem Twins.runCycle (h : Twins σ b b') (cg : CompiledSimGraph) (mc : Option ModeConfig)
    (stimulus : List CompiledNetIndex) (hst : TwinStates σ st st') (cycle : TestCycle) :
    TwinStates σ (runCycle cg b mc stimulus st cycle) (runCycle cg b' mc stimulus st' cycle) := by
  have hactive := h.cycleBatch cycle
  have h0 := hactive.injectAll (h.driveNets cg cycle.inputs stimulus
    (h.driveNets cg cycle.inputs cg.piNets hst.values))
  have h1 := hactive.settle cg mc hst.ffStates h0
  -- both lanes update the flip-flops as the golden reference does
  have hff := fun i j (hij : σ i j) k =>
    (updateFfStates_agree cg (h.lt hij).1 (fun _ => rfl) (fun _ => rfl) (fun _ => rfl) k).symm.trans
      (updateFfStates_agree cg (h.lt hij).2 (hst.ffStates i j hij) (h1 i j hij)
        (hst.prevValues i j hij) k)
  have h2 := hactive.settle cg mc hff h1
  have h3 := hactive.foldl_settle cg mc hff (List.range cycle.settleCycles) h2
  exact ⟨h3, h3, hff⟩

/-- **A whole run keeps related lanes equal**, sample by sample. -/
theorem runCycles_twins (h : Twins σ b b') (cg : CompiledSimGraph) (mc : Option ModeConfig)
    (stimulus : List CompiledNetIndex) (cycles : List TestCycle) (hst : TwinStates σ st st') :
    List.Forall₂ (SameLanes σ) (runCycles cg b mc stimulus st cycles)
      (runCycles cg b' mc stimulus st' cycles) := by
  induction cycles generalizing st st' with
  | nil => exact .nil
  | cons cycle cycles ih =>
    have hstep := h.runCycle cg mc stimulus hst cycle
    rw [runCycles, runCycles]
    split
    · exact .cons hstep.values (ih hstep)
    · exact ih hstep

/-- Every run starts alike in all lanes. -/
theorem Twins.init (h : Twins σ b b') (cg : CompiledSimGraph) (vec : TestVector) :
    TwinStates σ { ffStates := initialFfStates cg vec } { ffStates := initialFfStates cg vec } := by
  refine ⟨fun i j _ _ => ?_, fun i j _ _ => ?_, fun i j hij k => ?_⟩
  · rw [lane_zero, lane_zero]
  · rw [lane_zero, lane_zero]
  · simp only [initialFfStates]
    split
    · rw [lane_broadcast (h.lt hij).1, lane_broadcast (h.lt hij).2]
    · rw [lane_zero, lane_zero]

end Twins

/-! ## A fault alone -/

/-- Lane `0`, and a lane that stands for lane `1`. -/
def aloneLanes (i : ℕ) (k j : ℕ) : Prop := (k = 0 ∧ j = 0) ∨ (k = i ∧ j = 1)

variable {b : FaultBatch} {i : ℕ} {f : CompactFault}

/-- **A fault of a batch is a twin of the fault alone.** -/
theorem twins_singleBatch (hb : b.WellFormed) (hi : i < 64) {f' : CompactFault} (hf : b.InLane i f)
    (hnet : f.netIndex = f'.netIndex) (htype : f.type = f'.type) (hexcl : f'.exclusion = .NONE) :
    Twins (aloneLanes i) b (singleBatch f') := by
  have hsingle := singleBatch_wellFormed hexcl
  refine ⟨hb, hsingle, ?_, ?_⟩
  · rintro k j (⟨rfl, rfl⟩ | ⟨rfl, rfl⟩) <;> omega
  · rintro k j (⟨rfl, rfl⟩ | ⟨rfl, rfl⟩) net x
    · rw [hb.laneFault_zero, hsingle.laneFault_zero]
    · rw [hb.laneFault_eq hf, hsingle.laneFault_eq (singleBatch_inLane f')]
      simp only [Golden.force, hb.not_excluded f hf.1, hexcl, hnet, CompactFault.value, htype]

/-- The bit of a lane: in some sample an observed net differs from lane `0`. -/
theorem lane_detected (hb : b.WellFormed) (hi : i < 64) (hf : b.InLane i f)
    (nets : List CompiledNetIndex) (samples : List Words) :
    lane i (samples.foldl (observe nets) 0#64 &&& b.mask) =
      samples.any fun nv => nets.any fun o => lane 0 (nv o) != lane i (nv o) := by
  rw [lane_and, FaultBatch.lane_mask hb hi hf, Bool.and_true, lane_foldl_observe hi, lane_zero,
    Bool.false_or]

/-- Twin lanes differ from the good one on the same samples. -/
theorem any_differs_of_twins {samples samples' : List Words}
    (h : List.Forall₂ (SameLanes (aloneLanes i)) samples samples') (nets : List CompiledNetIndex) :
    (samples.any fun nv => nets.any fun o => lane 0 (nv o) != lane i (nv o)) =
      samples'.any fun nv => nets.any fun o => lane 0 (nv o) != lane 1 (nv o) := by
  induction h with
  | nil => rfl
  | cons hn _ ih =>
    rw [List.any_cons, List.any_cons, ih]
    congr 2
    funext o
    rw [hn 0 0 (.inl ⟨rfl, rfl⟩) o, hn i 1 (.inr ⟨rfl, rfl⟩) o]

section Alone

variable (hb : b.WellFormed) (hi : i < 64) {f' : CompactFault} (hf : b.InLane i f)
  (hnet : f.netIndex = f'.netIndex) (htype : f.type = f'.type) (hexcl : f'.exclusion = .NONE)

include hb hi hf hnet htype hexcl

/-- **The verdict on a lane is the verdict on its fault alone.** -/
theorem lane_simulateBatch_alone (cg : CompiledSimGraph) (vec : TestVector) :
    lane i (simulateBatch cg vec b) = lane 1 (simulateBatch cg vec (singleBatch f')) := by
  have htwins := twins_singleBatch hb hi hf hnet htype hexcl
  rw [simulateBatch, simulateBatch, lane_detected hb hi hf,
    lane_detected htwins.right (by omega) (singleBatch_inLane f')]
  exact any_differs_of_twins (runCycles_twins htwins cg _ [] _ (htwins.init cg vec)) cg.observable

/-- The same under a test mode. -/
theorem lane_simulateBatchMode_alone (cg : CompiledSimGraph) (vec : TestVector) (mc : ModeConfig) :
    lane i (simulateBatchMode cg vec b mc) =
      lane 1 (simulateBatchMode cg vec (singleBatch f') mc) := by
  have htwins := twins_singleBatch hb hi hf hnet htype hexcl
  rw [simulateBatchMode, simulateBatchMode, lane_detected hb hi hf,
    lane_detected htwins.right (by omega) (singleBatch_inLane f')]
  exact any_differs_of_twins (runCycles_twins htwins cg _ _ _ (htwins.init cg vec))
    mc.observableNets

end Alone

end BitParallel

end FaultFlow
