/-
# Every lane of the bit-parallel engine is a golden machine

Lane `i` of a word computation is the Boolean computation of the machine with
the fault of lane `i` (`laneFault`, none in lane `0`): injection forces that
fault (`lane_injectWord`), a node computes what the golden reference computes
(`lane_modeWord`, which needs a gate's used slots to come first), and a
flip-flop takes the same next state (`lane_nextFfState`).

The engines differ in one step: the bit-parallel one forces all faulty nets
before a cycle is evaluated.  `runCycle_agree` is the step lemma: a cycle keeps
the two states equal in a lane, as long as nothing reads the lane's faulty net
before the evaluation has written it (`SettlesInOrder`).
-/

import FaultFlow.Sim.BitParallel
import FaultFlow.Sim.Passes

namespace FaultFlow

open Lib

namespace FaultBatch

/-- The fault whose lane is `i`. -/
def laneFault (b : FaultBatch) (i : ℕ) : Option CompactFault :=
  b.faults.find? fun f => f.saMask = laneMask i

/-- The masks of two lanes differ. -/
theorem laneMask_injective {i j : ℕ} (hi : i < 64) (h : laneMask i = laneMask j) : i = j := by
  have := lane_laneMask (i := j) hi
  rw [← h, lane_laneMask hi] at this
  simpa using this

/-- A lane of a well-formed batch has one fault. -/
theorem WellFormed.laneFault_eq {b : FaultBatch} (hb : b.WellFormed) {i : ℕ} {f : CompactFault}
    (h : b.InLane i f) : b.laneFault i = some f := by
  have hsome : (b.laneFault i).isSome := List.find?_isSome.2 ⟨f, h.1, by simpa using h.2⟩
  obtain ⟨g, hg⟩ := Option.isSome_iff_exists.1 hsome
  have hmask : g.saMask = laneMask i := by simpa using List.find?_some hg
  rw [hg, List.inj_on_of_nodup_map hb.distinct (List.mem_of_find?_eq_some hg) h.1
    (hmask.trans h.2.symm)]

/-- No fault sits in lane `0`. -/
theorem WellFormed.laneFault_zero {b : FaultBatch} (hb : b.WellFormed) : b.laneFault 0 = none := by
  refine List.find?_eq_none.2 fun f hf => ?_
  obtain ⟨j, hj, hj', hmask⟩ := hb.lane f hf
  intro h
  have := laneMask_injective hj' (hmask.symm.trans (by simpa using h))
  omega

theorem wellFormed_empty : WellFormed {} :=
  ⟨by simp, by simp, by simp, by simp, rfl⟩

end FaultBatch

namespace BitParallel

open Golden (force nodeAssign nodeAssigns constAssign)

/-- **A fault is forced in its lane and nowhere else.** -/
theorem lane_forceWord {f : CompactFault} {i j : ℕ} (hi : i < 64) (hf : f.saMask = laneMask j)
    (w : Word) : lane i (forceWord f w) = if i = j then f.value else lane i w := by
  unfold forceWord
  by_cases ht : f.type = .SA0
  · rw [if_pos ht, lane_and, lane_not hi, hf, lane_laneMask hi]
    by_cases hij : i = j
    · simp [hij, CompactFault.value, ht]
    · simp [hij]
  · rw [if_neg ht, lane_or, hf, lane_laneMask hi]
    by_cases hij : i = j
    · simp [hij, CompactFault.value, ht]
    · simp [hij]

variable {i : ℕ}

/-- Faults of other lanes do not touch a lane. -/
theorem lane_foldl_force_of_ne (hi : i < 64) (net : CompiledNetIndex) {faults : List CompactFault}
    (hlane : ∀ f ∈ faults, ∃ j, i ≠ j ∧ f.saMask = laneMask j) (w : Word) :
    lane i (faults.foldl (fun w f => if f.netIndex ≠ net then w else forceWord f w) w) =
      lane i w := by
  induction faults generalizing w with
  | nil => rfl
  | cons f faults ih =>
    rw [List.foldl_cons, ih fun g hg => hlane g (List.mem_cons_of_mem _ hg)]
    obtain ⟨j, hij, hf⟩ := hlane f (by simp)
    split
    · rfl
    · rw [lane_forceWord hi hf, if_neg hij]

/-- **Injection forces the fault of each lane in its lane.** -/
theorem lane_injectWord {b : FaultBatch} (hb : b.WellFormed) (hi : i < 64) (net : CompiledNetIndex)
    (w : Word) :
    lane i (injectWord b net w) = force (b.laneFault i) net (lane i w) := by
  have hother : ∀ fs : List CompactFault, fs ⊆ b.faults → (∀ f ∈ fs, f.saMask ≠ laneMask i) →
      ∀ f ∈ fs, ∃ j, i ≠ j ∧ f.saMask = laneMask j := by
    intro fs hsub hne f hf
    obtain ⟨j, -, -, hmask⟩ := hb.lane f (hsub hf)
    exact ⟨j, fun hij => hne f hf (hij ▸ hmask), hmask⟩
  cases hlf : b.laneFault i with
  | none =>
    have hne : ∀ f ∈ b.faults, f.saMask ≠ laneMask i := by
      simpa [FaultBatch.laneFault] using hlf
    exact lane_foldl_force_of_ne hi net (hother _ (fun _ h => h) hne) w
  | some f =>
    have hmask : f.saMask = laneMask i := by simpa using List.find?_some hlf
    obtain ⟨pre, post, hsplit⟩ := List.append_of_mem (List.mem_of_find?_eq_some hlf)
    -- the masks are distinct, so no fault before or after `f` has its lane
    have hnd := hb.distinct
    rw [hsplit, List.map_append, List.map_cons, List.nodup_append, List.nodup_cons] at hnd
    have hpre : ∀ g ∈ pre, g.saMask ≠ laneMask i := fun g hg h =>
      hnd.2.2 _ (List.mem_map_of_mem hg) f.saMask (by simp) (h.trans hmask.symm)
    have hpost : ∀ g ∈ post, g.saMask ≠ laneMask i := fun g hg h =>
      hnd.2.1.1 (List.mem_map.2 ⟨g, hg, h.trans hmask.symm⟩)
    rw [injectWord, hsplit, List.foldl_append, List.foldl_cons,
      lane_foldl_force_of_ne hi net (hother post (by simp [hsplit]) hpost)]
    have hw := lane_foldl_force_of_ne hi net (hother pre (by simp [hsplit]) hpre) w
    have hex := hb.not_excluded f (by simp [hsplit])
    by_cases hnet : f.netIndex = net
    · subst hnet
      rw [if_neg (by simp), lane_forceWord hi hmask, if_pos rfl, Golden.force_self hex]
    · rw [if_pos hnet, hw, Golden.force_of_ne hnet]

/-- Before a cycle every faulty net is forced, in its lane. -/
theorem lane_injectAll {b : FaultBatch} (hb : b.WellFormed) (hi : i < 64) (nv : Words)
    (net : CompiledNetIndex) :
    lane i (injectAll b nv net) = force (b.laneFault i) net (lane i (nv net)) := by
  -- injecting twice at one net is the same as once
  have hforce : ∀ x, force (b.laneFault i) net (force (b.laneFault i) net x) =
      force (b.laneFault i) net x := by
    intro x
    cases b.laneFault i with
    | none => rfl
    | some f =>
      simp only [force]
      split <;> rfl
  have hstep : ∀ (fs : List CompactFault) (nv : Words),
      lane i (fs.foldl (fun nv f => injectFaults nv b f.netIndex) nv net) =
        if (fs.any fun f => f.netIndex = net) then
          force (b.laneFault i) net (lane i (nv net)) else lane i (nv net) := by
    intro fs
    induction fs with
    | nil => intro nv; simp
    | cons f fs ih =>
      intro nv
      rw [List.foldl_cons, ih]
      by_cases hf : f.netIndex = net
      · subst hf
        simp [injectFaults, lane_injectWord hb hi, hforce]
      · simp [injectFaults, Function.update_of_ne (Ne.symm hf), hf]
  rw [injectAll, hstep]
  split
  · rfl
  · rename_i hany
    cases hlf : b.laneFault i with
    | none => rfl
    | some f =>
      have hmem := List.mem_of_find?_eq_some hlf
      rw [Golden.force_of_ne]
      intro hnet
      exact hany (List.any_eq_true.2 ⟨f, hmem, by simpa using hnet⟩)

/-- A lane of an input word. -/
theorem lane_gatherInput (i : ℕ) (nv : Words) (slot : Option CompiledNetIndex) :
    lane i (gatherInput nv slot) = slotValue (fun n => lane i (nv n)) slot := by
  cases slot with
  | none => exact lane_zero i
  | some n => rfl

/-- The constants are the values of their gate types. -/
theorem plainWord_eq (nv : Words) (sn : SimNode) :
    plainWord nv sn = evalBitwise sn.type (sn.slots.map (gatherInput nv)) := by
  unfold plainWord
  split
  · next h => rw [h]; rfl
  · next h => rw [h]; rfl
  · rfl

/-- A gate without a gap computes in each lane what the golden reference does. -/
theorem lane_plainWord {sn : SimNode} (h : sn.GapFree) (hi : i < 64) (nv : Words) :
    lane i (plainWord nv sn) = Golden.plainValue (fun n => lane i (nv n)) sn := by
  rw [plainWord_eq, Golden.plainValue_eq, lane_evalBitwise _ hi, List.map_map,
    SimNode.evalScalar_inputNets h]
  congr 1
  exact List.map_congr_left fun o _ => lane_gatherInput i nv o

/-- **A node computes in each lane what the golden reference does.** -/
theorem lane_modeWord {sn : SimNode} (h : sn.IsWrapper ∨ sn.GapFree) (hi : i < 64)
    (action : CompiledNetIndex → WbrAction) (nv : Words) :
    lane i (modeWord action nv sn) = Golden.modeValue action (fun n => lane i (nv n)) sn := by
  by_cases hw : sn.type = .WBR_IN ∨ sn.type = .WBR_OUT
  · simp only [modeWord, Golden.modeValue, if_pos hw]
    cases action sn.out with
    | SKIP_STIMULUS => rfl
    | FORCE_ZERO => exact lane_zero i
    | DRIVE_FROM_FF => exact lane_gatherInput i nv _
    | PASS => exact lane_gatherInput i nv _
  · simp only [modeWord, Golden.modeValue, if_neg hw]
    exact lane_plainWord (h.resolve_left hw) hi nv

/-- Without a mode a wrapper cell is evaluated as a gate, which passes `in0`. -/
theorem plainWord_eq_modeWord (nv : Words) (sn : SimNode) :
    plainWord nv sn = modeWord (fun _ => .PASS) nv sn := by
  by_cases hw : sn.type = .WBR_IN ∨ sn.type = .WBR_OUT
  · rw [modeWord, if_pos hw]
    rcases hw with hw | hw <;>
      simp [plainWord, hw, evalGate, evalBitwise, pick, SimNode.slots]
  · rw [modeWord, if_neg hw]

/-- The assignment of a node in words. -/
def nodeAssign (action : CompiledNetIndex → WbrAction) (b : FaultBatch) (sn : SimNode) :
    Assign CompiledNetIndex Word where
  out := sn.out
  reads := sn.out :: sn.inputNets
  fn nv := injectWord b sn.out (modeWord action nv sn)
  congr x y h := by
    have hslot : ∀ s, gatherInput x (sn.ins s) = gatherInput y (sn.ins s) := by
      intro s
      cases hs : sn.ins s with
      | none => rfl
      | some n => exact h n (List.mem_cons_of_mem _ (SimNode.mem_inputNets.2 ⟨s, hs⟩))
    have hplain : plainWord x sn = plainWord y sn := by
      simp only [plainWord, SimNode.slots, List.map_cons, List.map_nil, hslot]
    have hmode : modeWord action x sn = modeWord action y sn := by
      simp only [modeWord, hslot, hplain, h sn.out (by simp)]
    rw [hmode]

/-- The pass over the nodes that are evaluated, in words. -/
def nodeAssigns (action : CompiledNetIndex → WbrAction) (b : FaultBatch) (nodes : List SimNode) :
    List (Assign CompiledNetIndex Word) :=
  (nodes.filter fun sn => ¬ sn.IsSource).map (nodeAssign action b)

/-- The gate `fault_present` puts before an injection changes nothing. -/
theorem evalNode_eq_step (word : Words → SimNode → Word) (action : CompiledNetIndex → WbrAction)
    (b : FaultBatch) (nv : Words) (sn : SimNode) (hs : ¬ sn.IsSource)
    (hword : word nv sn = modeWord action nv sn) :
    evalNode word b nv sn = Assign.step nv (nodeAssign action b sn) := by
  have hno : ∀ w, ¬ (b.faults.any fun f => f.netIndex = sn.out) →
      injectWord b sn.out w = w := by
    intro w hany
    refine foldl_invariant (fun x => x = w) rfl fun f hf x hx => ?_
    rw [if_pos]
    · exact hx
    · exact fun h => hany (List.any_eq_true.2 ⟨f, hf, by simpa using h⟩)
  simp only [evalNode, if_neg hs, hword, Assign.step, nodeAssign]
  split
  · simp [injectFaults]
  · rw [hno _ (by assumption)]

/-- The pass over words, as a straight-line pass. -/
theorem evaluate_eq_run (cg : CompiledSimGraph) (b : FaultBatch) (mc : Option ModeConfig)
    (nv : Words) :
    evaluate cg b mc nv =
      Assign.run (nodeAssigns (Golden.actionOf mc) b cg.passNodes) nv := by
  have hfold : ∀ (word : Words → SimNode → Word) (action : CompiledNetIndex → WbrAction),
      (∀ nv sn, word nv sn = modeWord action nv sn) → ∀ (nodes : List SimNode) (nv : Words),
      nodes.foldl (evalNode word b) nv = Assign.run (nodeAssigns action b nodes) nv := by
    intro word action hword nodes
    induction nodes with
    | nil => exact fun _ => rfl
    | cons sn nodes ih =>
      intro nv
      rw [List.foldl_cons, ih]
      by_cases hs : sn.IsSource
      · simp [nodeAssigns, evalNode, hs]
      · rw [evalNode_eq_step word action b nv sn hs (hword nv sn)]
        simp [nodeAssigns, hs]
  cases mc with
  | none => exact hfold _ _ plainWord_eq_modeWord _ _
  | some mc => exact hfold _ _ (fun _ _ => rfl) _ _

/-- The assignment of a known word. -/
def constAssign (b : FaultBatch) (net : CompiledNetIndex) (w : Word) :
    Assign CompiledNetIndex Word where
  out := net
  reads := []
  fn _ := injectWord b net w
  congr _ _ _ := rfl

/-- The pass of one half of a cycle, in words. -/
def settleAssigns (cg : CompiledSimGraph) (b : FaultBatch) (mc : Option ModeConfig)
    (ffStates : Nat → Word) : List (Assign CompiledNetIndex Word) :=
  cg.ffs.zipIdx.map (fun p => constAssign b p.1.out (ffStates p.2)) ++
    nodeAssigns (Golden.actionOf mc) b cg.passNodes

/-- With the flip-flops seeded. -/
theorem settle_eq_run (cg : CompiledSimGraph) (b : FaultBatch) (mc : Option ModeConfig)
    (ffStates : Nat → Word) (nv : Words) :
    settle cg b mc ffStates nv = Assign.run (settleAssigns cg b mc ffStates) nv := by
  have hseed : seedFfOutputs cg b ffStates nv =
      Assign.run (cg.ffs.zipIdx.map fun p => constAssign b p.1.out (ffStates p.2)) nv := by
    rw [seedFfOutputs, Assign.run, List.foldl_map]
    congr 1
    funext v p
    simp [injectFaults, Assign.step, constAssign]
  rw [settle, evaluate_eq_run, hseed, settleAssigns, Assign.run_append]

/-- An input has its value in every lane; the other nets keep theirs. -/
theorem driveNets_apply (cg : CompiledSimGraph) (inputs : Std.TreeMap YosysNetID Bool)
    (nets : List CompiledNetIndex) (nv : Words) (n : CompiledNetIndex) :
    driveNets cg inputs nets nv n =
      if n ∈ nets then broadcast (inputs.getD (cg.yosysOf n) false) else nv n := by
  induction nets generalizing nv with
  | nil => simp [driveNets]
  | cons net nets ih =>
    rw [driveNets, List.foldl_cons, ← driveNets, ih]
    by_cases hn : n = net
    · subst hn
      simp
    · simp [hn]

/-- A lane of a control mask. -/
theorem lane_activeMask (hi : i < 64) (w : Word) (polarity : Polarity) :
    lane i (activeMask w polarity) = Golden.controlActive (lane i w) polarity := by
  unfold activeMask Golden.controlActive
  split
  · rfl
  · exact lane_not hi w

/-- A lane of an edge mask. -/
theorem lane_edgeMask (hi : i < 64) (prev cur : Word) (trigger : TriggerType) :
    lane i (edgeMask prev cur trigger) = Golden.edgeActive (lane i prev) (lane i cur) trigger := by
  unfold edgeMask Golden.edgeActive
  split
  · rw [lane_and, lane_not hi]
  · rw [lane_and, lane_not hi]

/-- A lane of a masked value. -/
theorem lane_applyValueMask (hi : i < 64) (original mask : Word) (value : Nat) :
    lane i (applyValueMask original mask value) =
      if lane i mask then value != 0 else lane i original := by
  unfold applyValueMask
  by_cases hv : value = 0
  · rw [if_pos hv, lane_and, lane_not hi, hv]
    cases lane i mask <;> simp
  · rw [if_neg hv, lane_or]
    cases lane i mask <;> simp [hv]

/-- **A flip-flop takes the same next state in each lane.** -/
theorem lane_nextFfState (hi : i < 64) (cfg : CompiledFFConfig) (sn : SimNode)
    (nv prevValues : Words) (state : Word) :
    lane i (nextFfState cfg sn nv prevValues state) =
      Golden.nextFfState cfg sn (fun n => lane i (nv n)) (fun n => lane i (prevValues n))
        (lane i state) := by
  have hite : ∀ (c : Bool) (x y : Word), lane i (if c then x else y) =
      if c then lane i x else lane i y := fun c _ _ => by cases c <;> rfl
  simp only [nextFfState, Golden.nextFfState, lane_or, lane_and, lane_not hi, hite,
    lane_applyValueMask hi, lane_edgeMask hi, lane_activeMask hi, lane_gatherInput, lane_zero]
  generalize Golden.controlActive (slotValue _ (sn.ins 5)) _ = se
  generalize Golden.controlActive (slotValue _ (sn.ins 2)) cfg.clearPolarity = cl
  generalize Golden.controlActive (slotValue _ (sn.ins 3)) _ = pr
  generalize Golden.controlActive (slotValue _ (sn.ins 2)) _ = en
  generalize Golden.edgeActive _ _ _ = edge
  cases cfg.hasScan && (sn.ins 4).isSome && (sn.ins 5).isSome <;>
    cases cfg.hasClear <;> cases cfg.hasPreset <;> cases (sn.ins 2).isSome <;>
    cases (sn.ins 3).isSome <;> cases se <;> cases cl <;> cases pr <;> cases edge <;> simp
  all_goals cases cfg.hasEnable <;> cases en <;> simp

/-- The evaluated gates of a graph have no gap; wrapper cells read fixed slots. -/
def GatesGapFree (cg : CompiledSimGraph) : Prop :=
  ∀ sn ∈ cg.passNodes, ¬ sn.IsSource → sn.IsWrapper ∨ sn.GapFree

instance (cg : CompiledSimGraph) : Decidable (GatesGapFree cg) :=
  inferInstanceAs (Decidable (∀ sn ∈ cg.passNodes, ¬ sn.IsSource → sn.IsWrapper ∨ sn.GapFree))

section Cycle

variable {cg : CompiledSimGraph} {b : FaultBatch} {mc : Option ModeConfig} {fs : Nat → Bool}
  {ws : Nat → Word}

/-- The two passes of one half of a cycle run in lockstep in a lane. -/
theorem settleAssigns_lifts (hgap : GatesGapFree cg) (hb : b.WellFormed) (hi : i < 64)
    (hfs : ∀ k, fs k = lane i (ws k)) :
    List.Forall₂ (Assign.Lifts (lane i)) (Golden.settleAssigns cg (b.laneFault i) mc fs)
      (settleAssigns cg b mc ws) := by
  refine List.rel_append ?_ ?_
  · refine List.forall₂_map_left_iff.2 (List.forall₂_map_right_iff.2
      (List.forall₂_same.2 fun p _ => ⟨rfl, fun _ _ _ => ?_⟩))
    simp only [constAssign, Golden.constAssign, lane_injectWord hb hi, hfs]
  · refine List.forall₂_map_left_iff.2 (List.forall₂_map_right_iff.2
      (List.forall₂_same.2 fun sn hsn => ⟨rfl, fun x y hxy => ?_⟩))
    obtain ⟨hmem, hs⟩ := List.mem_filter.1 hsn
    have hnode := hgap sn hmem (by simpa using hs)
    simp only [nodeAssign, Golden.nodeAssign, lane_injectWord hb hi, lane_modeWord hnode hi]
    rw [Golden.modeValue_congr hxy]

variable {v : Values} {nv : Words}

/-- **One half of a cycle.**  The engines may start apart on the nets of `D`, if
those are written before they are read. -/
theorem settle_agree (hgap : GatesGapFree cg) (hb : b.WellFormed) (hi : i < 64)
    (hfs : ∀ k, fs k = lane i (ws k)) {D : Set CompiledNetIndex}
    (hfresh : Assign.Fresh D (Golden.settleAssigns cg (b.laneFault i) mc fs))
    (hD : ∀ n ∈ D, n ∈ Assign.outs (Golden.settleAssigns cg (b.laneFault i) mc fs))
    (hv : ∀ n ∉ D, v n = lane i (nv n)) (n : CompiledNetIndex) :
    Golden.settle cg (b.laneFault i) mc fs v n = lane i (settle cg b mc ws nv n) := by
  rw [Golden.settle_eq_run, settle_eq_run]
  exact Assign.run_lift (settleAssigns_lifts hgap hb hi hfs) hfresh hv (hD n)

/-- Once the engines agree, they keep agreeing. -/
theorem settle_agree_of_agree (mc : Option ModeConfig) (hgap : GatesGapFree cg) (hb : b.WellFormed)
    (hi : i < 64) (hfs : ∀ k, fs k = lane i (ws k)) (hv : ∀ n, v n = lane i (nv n))
    (n : CompiledNetIndex) :
    Golden.settle cg (b.laneFault i) mc fs v n = lane i (settle cg b mc ws nv n) :=
  settle_agree hgap hb hi hfs (Assign.fresh_empty _) (fun _ h => h.elim) (fun n _ => hv n) n

/-- Rounds of settling agree lane by lane. -/
theorem foldl_settle_agree (mc : Option ModeConfig) (hgap : GatesGapFree cg) (hb : b.WellFormed)
    (hi : i < 64) (hfs : ∀ k, fs k = lane i (ws k)) (l : List ℕ) (hv : ∀ n, v n = lane i (nv n))
    (n : CompiledNetIndex) :
    l.foldl (fun v _ => Golden.settle cg (b.laneFault i) mc fs v) v n =
      lane i (l.foldl (fun nv _ => settle cg b mc ws nv) nv n) := by
  induction l generalizing v nv with
  | nil => exact hv n
  | cons _ l ih => exact ih fun n => settle_agree_of_agree mc hgap hb hi hfs hv n

/-- **The flip-flops agree lane by lane.** -/
theorem updateFfStates_agree (cg : CompiledSimGraph) (hi : i < 64) (hfs : ∀ k, fs k = lane i (ws k))
    {v pv : Values} {nv pnv : Words} (hv : ∀ n, v n = lane i (nv n))
    (hpv : ∀ n, pv n = lane i (pnv n)) (k : ℕ) :
    Golden.updateFfStates cg v pv fs k = lane i (updateFfStates cg nv pnv ws k) := by
  obtain rfl : v = fun n => lane i (nv n) := funext hv
  obtain rfl : pv = fun n => lane i (pnv n) := funext hpv
  unfold Golden.updateFfStates updateFfStates
  generalize cg.ffs.zipIdx = l
  induction l generalizing fs ws with
  | nil => exact hfs k
  | cons p l ih =>
    refine ih fun k => ?_
    simp only
    by_cases hk : k = p.2
    · subst hk
      rw [Function.update_self, Function.update_self, lane_nextFfState hi, hfs]
    · rw [Function.update_of_ne hk, Function.update_of_ne hk, hfs]

/-- The words after the inputs are driven and the faults injected, against the
golden values after the inputs are driven: they differ at most at the lane's
faulty net, when no input drives it. -/
theorem drive_agree (hb : b.WellFormed) (hi : i < 64) (inputs : Std.TreeMap YosysNetID Bool)
    {nets : List CompiledNetIndex} (hv : ∀ n, v n = lane i (nv n)) {n : CompiledNetIndex}
    (hn : n ∈ nets ∨ ∀ f, b.laneFault i = some f → f.netIndex ≠ n) :
    Golden.driveNets cg inputs (b.laneFault i) nets v n =
      lane i (injectAll b (driveNets cg inputs nets nv) n) := by
  rw [lane_injectAll hb hi, Golden.driveNets_apply, driveNets_apply]
  by_cases hmem : n ∈ nets
  · rw [if_pos hmem, if_pos hmem, lane_broadcast hi]
  · rw [if_neg hmem, if_neg hmem, hv]
    cases hlf : b.laneFault i with
    | none => rfl
    | some f => rw [Golden.force_of_ne (hn.resolve_left hmem f hlf)]

/-- The bit-parallel state is the golden state in lane `i`. -/
structure LaneState (i : ℕ) (g : Golden.State) (st : State) : Prop where
  values : ∀ n, g.values n = lane i (st.values n)
  prevValues : ∀ n, g.prevValues n = lane i (st.prevValues n)
  ffStates : ∀ k, g.ffStates k = lane i (st.ffStates k)

/-- One half of a cycle writes net `n`, and reads it only afterwards. -/
def SettlesInOrder (cg : CompiledSimGraph) (mc : Option ModeConfig) (n : CompiledNetIndex) :
    Prop :=
  ∀ fault fs, Assign.Fresh {n} (Golden.settleAssigns cg fault mc fs) ∧
    n ∈ Assign.outs (Golden.settleAssigns cg fault mc fs)

/-- The batch of a cycle: empty while the faults are inactive. -/
def cycleBatch (b : FaultBatch) (cycle : TestCycle) : FaultBatch :=
  if cycle.faultActive then b else {}

/-- A cycle keeps the batch well-formed. -/
theorem cycleBatch_wellFormed (hb : b.WellFormed) (cycle : TestCycle) :
    (cycleBatch b cycle).WellFormed := by
  unfold cycleBatch
  split
  · exact hb
  · exact FaultBatch.wellFormed_empty

/-- A cycle has the fault of a lane, or none. -/
theorem cycleBatch_laneFault (b : FaultBatch) (cycle : TestCycle) (i : ℕ) :
    (cycleBatch b cycle).laneFault i = if cycle.faultActive then b.laneFault i else none := by
  unfold cycleBatch
  split <;> rfl

/-- **One cycle keeps the two states equal in a lane**, when an input drives the
lane's faulty net or the evaluation writes it before reading it. -/
theorem runCycle_agree (hgap : GatesGapFree cg) (hb : b.WellFormed) (hi : i < 64)
    (hord : ∀ f, b.laneFault i = some f →
      f.netIndex ∈ cg.piNets ∨ SettlesInOrder cg mc f.netIndex)
    {g : Golden.State} {st : State} (h : LaneState i g st) (cycle : TestCycle) :
    LaneState i (Golden.runCycle cg (b.laneFault i) mc g cycle)
      (runCycle cg b mc [] st cycle) := by
  have hb' := cycleBatch_wellFormed hb cycle
  have hfault := cycleBatch_laneFault b cycle i
  -- before the first half the engines may differ at the faulty net only
  let D : Set CompiledNetIndex :=
    {n | n ∉ cg.piNets ∧ ∃ f, (cycleBatch b cycle).laneFault i = some f ∧ f.netIndex = n}
  have hdrive : ∀ n ∉ D, Golden.driveNets cg cycle.inputs ((cycleBatch b cycle).laneFault i)
      cg.piNets g.values n =
      lane i (injectAll (cycleBatch b cycle) (driveNets cg cycle.inputs cg.piNets st.values) n) := by
    intro n hn
    refine drive_agree hb' hi cycle.inputs h.values ?_
    by_cases hpi : n ∈ cg.piNets
    · exact .inl hpi
    · exact .inr fun f hf hfn => hn ⟨hpi, f, hf, hfn⟩
  have hsub : ∀ n ∈ D, SettlesInOrder cg mc n ∧ D ⊆ {n} := by
    rintro n ⟨hpi, f, hf, rfl⟩
    have hbf : b.laneFault i = some f := by
      rw [hfault] at hf
      split at hf
      · exact hf
      · exact absurd hf (by simp)
    refine ⟨(hord f hbf).resolve_left hpi, ?_⟩
    rintro m ⟨-, f', hf', rfl⟩
    rw [hf] at hf'
    rw [Option.some.inj hf']
    rfl
  have hfresh : ∀ fs, Assign.Fresh D
      (Golden.settleAssigns cg ((cycleBatch b cycle).laneFault i) mc fs) := by
    intro fs
    by_cases hne : ∃ n, n ∈ D
    · obtain ⟨n, hn⟩ := hne
      exact ((hsub n hn).1 _ fs).1.mono (hsub n hn).2
    · exact (Assign.fresh_empty _).mono fun n hn => absurd ⟨n, hn⟩ hne
  have h1 := fun n => settle_agree hgap hb' hi h.ffStates (hfresh _)
    (fun n hn => ((hsub n hn).1 _ _).2) hdrive n
  have h2 := updateFfStates_agree cg hi h.ffStates h1 h.prevValues
  have h3 := fun n => settle_agree_of_agree mc hgap hb' hi h2 h1 n
  have h4 := fun n => foldl_settle_agree mc hgap hb' hi h2 (List.range cycle.settleCycles) h3 n
  rw [Golden.runCycle, ← hfault]
  exact ⟨h4, h4, h2⟩

/-- **A whole run keeps the two engines equal in a lane**, sample by sample. -/
theorem runCycles_agree (hgap : GatesGapFree cg) (hb : b.WellFormed) (hi : i < 64)
    (hord : ∀ f, b.laneFault i = some f →
      f.netIndex ∈ cg.piNets ∨ SettlesInOrder cg mc f.netIndex)
    {g : Golden.State} {st : State} (h : LaneState i g st) (cycles : List TestCycle) :
    Golden.runCycles cg (b.laneFault i) mc g cycles =
      (runCycles cg b mc [] st cycles).map fun nv n => lane i (nv n) := by
  induction cycles generalizing g st with
  | nil => rfl
  | cons cycle cycles ih =>
    have hstep := runCycle_agree hgap hb hi hord h cycle
    rw [Golden.runCycles, runCycles, ih hstep]
    split
    · rw [List.map_cons, funext hstep.values]
    · rfl

/-- The states both engines start from agree in every lane. -/
theorem laneState_init (hi : i < 64) (vec : TestVector) :
    LaneState i { ffStates := Golden.initialFfStates cg vec }
      { ffStates := initialFfStates cg vec } := by
  refine ⟨fun _ => (lane_zero i).symm, fun _ => (lane_zero i).symm, fun k => ?_⟩
  simp only [Golden.initialFfStates, initialFfStates]
  split
  · rw [lane_broadcast hi]
  · exact (lane_zero i).symm

end Cycle

end BitParallel

end FaultFlow
