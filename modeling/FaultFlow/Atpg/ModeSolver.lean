/-
# The stuck-at solver in a wrapper mode

The mode-aware `solve_stuck_at_fault` of `src/core/atpg/fault_solver.cpp`.  A
wrapper cell on a control point of the mode loses its equation, and its net is one
more input; an input wrapper on a safe-zero net gets the equation `0`.  An output
wrapper on a safe-zero net is encoded as the buffer it is in `FUNCTIONAL` mode.

The clauses are those of a system of equations (`solverAssigns`), and the answers
are right for that system (`exists_solveStuckAtFaultMode`).
-/

import FaultFlow.Atpg.Replay
import FaultFlow.Sim.ModeAgreement

namespace FaultFlow.Atpg

open Lib
open Std (TreeMap)
open Std.Sat (Literal)

variable (cg : CompiledSimGraph) (pis : List AtpgPiInfo) (mc : ModeConfig) (masks : ConeMasks)
  (fault : CompactFault) (net : CompiledNetIndex)

/-- `wbr_stimulus_nets`. -/
def wbrStimulusNets : List CompiledNetIndex :=
  mc.stimulusNets.filter fun net => mc.wbrAction net = .SKIP_STIMULUS

/-- The name under which the value of a stimulus net is emitted. -/
def wbrStimulus : AtpgPiInfo :=
  { name := "__wbrstim_" ++ toString (cg.yosysOf net), yosysId := cg.yosysOf net, compiled := net }

/-- The inputs that a solved map names: the primary inputs, then the stimulus nets
of the wrapper cells. -/
def modeInputs : List AtpgPiInfo := pis ++ (wbrStimulusNets mc).map (wbrStimulus cg)

/-- The clauses of an input wrapper on a safe-zero net. -/
def safeZeroClauses : Cnf :=
  (if masks.inSupport net then addUnit (freeLit net).negate else []) ++
    if masks.inOutcone net && net != fault.netIndex then addUnit (faultyLit net).negate else []

/-- The clauses of a wrapper cell on a stimulus net. -/
def stimulusClauses : Cnf :=
  if net ≠ fault.netIndex ∧ masks.inOutcone net = true then addEquiv (freeLit net) (faultyLit net)
  else []

/-- The two machines of one node in a mode. -/
def encodeNodeMode (cnf : Cnf) (node : SimNode) : Except FlowError Cnf :=
  if node.type = .INPUT then return cnf
  else if node.type = .WBR_IN ∧ node.out ∈ mc.safeZeroNets then
    return cnf ++ safeZeroClauses masks fault node.out
  else if (node.type = .WBR_IN ∨ node.type = .WBR_OUT) ∧ node.out ∈ wbrStimulusNets mc then
    return cnf ++ stimulusClauses masks fault node.out
  else encodeNode masks fault cnf node

/-- The clauses of the mode-aware `solve_stuck_at_fault`. -/
def stuckAtCnfMode (blocked : List (List Char)) (mc : ModeConfig) (masks : ConeMasks) :
    Except FlowError Cnf := do
  let cnf ← cg.nodes.foldlM (encodeNodeMode mc masks fault) []
  let cnf := cnf ++ pis.flatMap (tiePi masks fault)
  let cnf ← blocked.foldlM (blockPattern "PIs" (pis.map fun pi => freeLit pi.compiled)) cnf
  addMiter (nextVar cg.netCount) masks.observed (cnf ++ addUnit (faultLit fault))

/-- The mode-aware `solve_stuck_at_fault`. -/
def solveStuckAtFaultMode (solver : SatSolver ℕ) (cg : CompiledSimGraph) (pis : List AtpgPiInfo)
    (fault : CompactFault) (options : SatSolveOptions) (mc : ModeConfig) :
    Except FlowError (SolveOutcome (TreeMap String Bool)) :=
  if mc.mode = .FUNCTIONAL then solveStuckAtFault solver cg pis fault options
  else
    let masks := buildConeMasks cg fault.netIndex mc.observableNets options.coneRestrict
    if masks.redundant then return { result := .UNSAT, out := none }
    else do
      let cnf ← stuckAtCnfMode cg pis fault options.blockedPatterns mc masks
      return solveAndEmit solver (emit (modeInputs cg pis mc) freeVar) cnf

/-! ## Systems with wrapper cells -/

/-- The equation of a net that is forced to `0`. -/
def zeroAssign : Assign CompiledNetIndex Bool where
  out := net
  reads := []
  fn _ := false
  congr _ _ _ := rfl

/-- The equation of a node: `0` where the mode says so, and that of the gate. -/
def wrapperAssign (zero : SimNode → Bool) (n : SimNode) : Assign CompiledNetIndex Bool :=
  if zero n then zeroAssign n.out else CompiledSimGraph.gateAssign n

/-- The gates that keep an equation. -/
def boundNodes (free : SimNode → Bool) : List SimNode :=
  cg.nodes.filter fun n => ¬ n.IsSource ∧ free n = false

/-- The equations of a circuit in which some nodes are `0` and some are free. -/
def wrapperAssigns (zero free : SimNode → Bool) : List (Assign CompiledNetIndex Bool) :=
  (boundNodes cg free).map (wrapperAssign zero)

section System

variable {cg} {zero free : SimNode → Bool}

/-- The nodes with an equation. -/
theorem mem_boundNodes {n : SimNode} :
    n ∈ boundNodes cg free ↔ n ∈ cg.nodes ∧ ¬ n.IsSource ∧ free n = false := by
  simp [boundNodes]

@[simp]
theorem wrapperAssign_out (zero : SimNode → Bool) (n : SimNode) :
    (wrapperAssign zero n).out = n.out := by
  unfold wrapperAssign
  split <;> rfl

variable {i : CompiledNetIndex}

/-- An equation reads at most the inputs of its node. -/
theorem mem_inputNets_of_reads {n : SimNode} (h : i ∈ (wrapperAssign zero n).reads) :
    i ∈ n.inputNets := by
  unfold wrapperAssign at h
  split at h
  · exact absurd h List.not_mem_nil
  · exact h

/-- The equations of the system. -/
theorem mem_wrapperAssigns {a : Assign CompiledNetIndex Bool} :
    a ∈ wrapperAssigns cg zero free ↔ ∃ n ∈ boundNodes cg free, wrapperAssign zero n = a :=
  List.mem_map

/-- The nets with an equation. -/
theorem mem_outs_wrapperAssigns :
    i ∈ Assign.outs (wrapperAssigns cg zero free) ↔ ∃ n ∈ boundNodes cg free, n.out = i := by
  simp [Assign.outs, wrapperAssigns]

/-- A gate drives them in the circuit. -/
theorem gateDriven_of_mem_outs (h : i ∈ Assign.outs (wrapperAssigns cg zero free)) :
    cg.GateDriven i := by
  obtain ⟨n, hn, rfl⟩ := mem_outs_wrapperAssigns.1 h
  obtain ⟨hn, hsrc, -⟩ := mem_boundNodes.1 hn
  exact ⟨n, hn, hsrc, rfl⟩

/-- What feeds a net in the system feeds it in the circuit. -/
theorem fans_gateAssigns {i t : CompiledNetIndex}
    (h : Assign.Fans (wrapperAssigns cg zero free) i t) : Assign.Fans cg.gateAssigns i t := by
  obtain ⟨a, ha, hi, rfl⟩ := h
  obtain ⟨n, hn, rfl⟩ := mem_wrapperAssigns.1 ha
  obtain ⟨hn, hsrc, -⟩ := mem_boundNodes.1 hn
  exact ⟨_, CompiledSimGraph.mem_gateAssigns.2 ⟨n, hn, hsrc, rfl⟩, mem_inputNets_of_reads hi,
    (wrapperAssign_out zero n).symm⟩

/-- No net has two equations. -/
theorem nodup_outs_wrapperAssigns (h : cg.SingleDriver) :
    (Assign.outs (wrapperAssigns cg zero free)).Nodup := by
  have hout : Assign.out ∘ wrapperAssign zero = SimNode.out := funext (wrapperAssign_out zero)
  rw [Assign.outs, wrapperAssigns, List.map_map, hout]
  exact h.sublist (List.filter_sublist.map SimNode.out)

/-- A rank of the circuit ranks the system. -/
theorem rankedBy_wrapperAssigns {rank : CompiledNetIndex → ℕ}
    (h : Assign.RankedBy rank cg.gateAssigns) :
    Assign.RankedBy rank (wrapperAssigns cg zero free) := by
  intro a ha i hi hout
  obtain ⟨e, he, hread, heq⟩ := fans_gateAssigns ⟨a, ha, hi, rfl⟩
  rw [← heq]
  exact h e he i hread (CompiledSimGraph.mem_outs_gateAssigns.2 (gateDriven_of_mem_outs hout))

/-- **Masks that decide a fault in the circuit decide it in the system**: the free
nets have to be tied as well. -/
theorem Covers.wrapperAssigns {f : CompiledNetIndex} {Tied : CompiledNetIndex → Prop}
    {obs : List CompiledNetIndex} {masks : ConeMasks} {S : Set CompiledNetIndex}
    (h : Covers cg.gateAssigns f Tied obs masks S) :
    Covers (wrapperAssigns cg zero free) f
      (fun i => Tied i ∨ ∃ n ∈ cg.nodes, free n = true ∧ n.out = i) obs masks S where
  upper := ⟨h.upper.self, fun i hi t ht => h.upper.closed i hi t (fans_gateAssigns ht)⟩
  back := by
    intro a ha hout i hi
    obtain ⟨e, he, hread, heq⟩ := fans_gateAssigns ⟨a, ha, hi, rfl⟩
    exact h.back e he (heq ▸ hout) i hread
  support := h.support
  observed := h.observed
  kept := h.kept
  tied := by
    intro i hi hmi hout hne
    by_cases hgate : i ∈ Assign.outs cg.gateAssigns
    · obtain ⟨n, hn, hsrc, rfl⟩ := CompiledSimGraph.mem_outs_gateAssigns.1 hgate
      refine .inr ⟨n, hn, ?_, rfl⟩
      by_contra hfree
      exact hout (mem_outs_wrapperAssigns.2
        ⟨n, mem_boundNodes.2 ⟨hn, hsrc, Bool.eq_false_iff.2 hfree⟩, rfl⟩)
    · exact .inl (h.tied i hi hmi hgate hne)
  decided := h.decided

end System

/-! ## The clauses -/

/-- The nodes that the solver forces to `0`. -/
def solverZero (n : SimNode) : Bool := decide (n.type = .WBR_IN ∧ n.out ∈ mc.safeZeroNets)

/-- The nodes that the solver leaves free. -/
def solverFree (n : SimNode) : Bool :=
  !solverZero mc n && decide ((n.type = .WBR_IN ∨ n.type = .WBR_OUT) ∧ n.out ∈ wbrStimulusNets mc)

/-- The equations that the solver encodes. -/
def solverAssigns : List (Assign CompiledNetIndex Bool) :=
  wrapperAssigns cg (solverZero mc) (solverFree mc)

/-- What the clauses of one node say. -/
structure NodeHoldsMode (mc : ModeConfig) (masks : ConeMasks) (f : CompiledNetIndex) (a : ℕ → Bool)
    (n : SimNode) : Prop where
  bound : ¬ n.IsSource → solverFree mc n = false →
    EqHolds masks.inOutcone f (masks.inSupport n.out) a (wrapperAssign (solverZero mc) n)
  tied : solverFree mc n = true → n.out ≠ f → masks.inOutcone n.out = true →
    goodOf a n.out = faultyOf a n.out

/-- The clauses of one node in a mode. -/
def nodeClausesMode (n : SimNode) : Cnf :=
  if solverZero mc n then safeZeroClauses masks fault n.out
  else if solverFree mc n then stimulusClauses masks fault n.out
  else nodeClauses masks fault n

variable {n : SimNode}

/-- A combinational node adds its clauses. -/
theorem encodeNodeMode_eq_ok (htype : n.type ≠ .DFF) (mc : ModeConfig) (masks : ConeMasks)
    (fault : CompactFault) (cnf : Cnf) :
    encodeNodeMode mc masks fault cnf n = .ok (cnf ++ nodeClausesMode mc masks fault n) := by
  by_cases hin : n.type = .INPUT
  · simp [encodeNodeMode, nodeClausesMode, nodeClauses, solverZero, solverFree, hin, pure,
      Except.pure]
  · by_cases hzero : n.type = .WBR_IN ∧ n.out ∈ mc.safeZeroNets
    · have hz : solverZero mc n = true := decide_eq_true hzero
      rw [encodeNodeMode, nodeClausesMode, if_neg hin, if_pos hzero, hz, if_pos rfl]
      rfl
    · have hz : solverZero mc n = false := decide_eq_false hzero
      rw [encodeNodeMode, nodeClausesMode, if_neg hin, if_neg hzero, hz,
        if_neg Bool.false_ne_true]
      by_cases hfree : (n.type = .WBR_IN ∨ n.type = .WBR_OUT) ∧ n.out ∈ wbrStimulusNets mc
      · have hf : solverFree mc n = true := by rw [solverFree, hz, decide_eq_true hfree]; rfl
        rw [if_pos hfree, if_pos hf]
        rfl
      · have hf : solverFree mc n = false := by rw [solverFree, hz, decide_eq_false hfree]; rfl
        rw [if_neg hfree, hf, if_neg Bool.false_ne_true, encodeNode_eq_ok htype]

variable {a : ℕ → Bool} {masks} {f : CompactFault}

/-- The clauses of a safe-zero net are the equation `0` in both machines. -/
theorem satisfies_safeZeroClauses {net : CompiledNetIndex} :
    Satisfies a (safeZeroClauses masks f net) ↔
      EqHolds masks.inOutcone f.netIndex (masks.inSupport net) a (zeroAssign net) := by
  rw [safeZeroClauses, satisfies_append]
  refine and_congr ?_ ?_
  · cases masks.inSupport net with
    | true => simp [satisfies_addUnit, goodOf, zeroAssign]
    | false => simp
  · show _ ↔ (masks.inOutcone net = true → net ≠ f.netIndex → _)
    cases masks.inOutcone net with
    | false => simp
    | true =>
      by_cases hne : net = f.netIndex
      · simp [hne]
      · simp [hne, satisfies_addUnit, faultyOf, zeroAssign]

/-- A stimulus is the same in both machines. -/
theorem satisfies_stimulusClauses {net : CompiledNetIndex} :
    Satisfies a (stimulusClauses masks f net) ↔
      (net ≠ f.netIndex → masks.inOutcone net = true → goodOf a net = faultyOf a net) := by
  unfold stimulusClauses
  split
  · rename_i hc
    rw [satisfies_addEquiv]
    simp [hc, goodOf, faultyOf]
  · rename_i hc
    simp only [satisfies_nil, true_iff]
    exact fun hne hO => absurd ⟨hne, hO⟩ hc

/-- A wrapper cell is no source. -/
theorem not_isSource_of_wrapper (h : n.type = .WBR_IN ∨ n.type = .WBR_OUT) :
    ¬ n.IsSource := by
  rcases h with h | h <;> simp [SimNode.IsSource, h]

/-- **The clauses of a node mean what `NodeHoldsMode` says.** -/
theorem satisfies_nodeClausesMode {mc : ModeConfig} (htype : n.type ≠ .DFF) :
    Satisfies a (nodeClausesMode mc masks f n) ↔ NodeHoldsMode mc masks f.netIndex a n := by
  unfold nodeClausesMode
  cases hz : solverZero mc n with
  | true =>
    have hsrc : ¬ n.IsSource := not_isSource_of_wrapper (.inl (of_decide_eq_true hz).1)
    have hfree : solverFree mc n = false := by rw [solverFree, hz]; rfl
    have heq : wrapperAssign (solverZero mc) n = zeroAssign n.out := if_pos hz
    rw [if_pos rfl, satisfies_safeZeroClauses, ← heq]
    exact ⟨fun h => ⟨fun _ _ => h, fun h' => absurd (hfree.symm.trans h') Bool.false_ne_true⟩,
      fun h => h.bound hsrc hfree⟩
  | false =>
    have heq : wrapperAssign (solverZero mc) n = CompiledSimGraph.gateAssign n :=
      if_neg (by rw [hz]; exact Bool.false_ne_true)
    rw [if_neg Bool.false_ne_true]
    cases hfree : solverFree mc n with
    | true =>
      rw [if_pos rfl, satisfies_stimulusClauses]
      exact ⟨fun h => ⟨fun _ h' => absurd (hfree.symm.trans h') (by decide), fun _ => h⟩,
        fun h => h.tied hfree⟩
    | false =>
      rw [if_neg Bool.false_ne_true, satisfies_nodeClauses_iff htype]
      refine ⟨fun h => ⟨fun hsrc _ => ?_, fun h' => absurd (hfree.symm.trans h') (by decide)⟩,
        fun h hsrc => ?_⟩
      · rw [heq]
        exact eqHolds_gateAssign.2 (h hsrc)
      · have hbound := h.bound hsrc hfree
        rw [heq] at hbound
        exact eqHolds_gateAssign.1 hbound

/-- What the clauses of the mode-aware `solve_stuck_at_fault` say of an
assignment. -/
structure StuckAtModelMode (cg : CompiledSimGraph) (mc : ModeConfig) (pis : List AtpgPiInfo)
    (f : CompactFault) (blocked : List (List Char)) (masks : ConeMasks) (a : ℕ → Bool) : Prop where
  nodes : ∀ n ∈ cg.nodes, NodeHoldsMode mc masks f.netIndex a n
  tied : ∀ pi ∈ pis, pi.compiled ≠ f.netIndex → masks.inOutcone pi.compiled = true →
    goodOf a pi.compiled = faultyOf a pi.compiled
  unblocked : keyOf (pis.map fun pi => goodOf a pi.compiled) ∉ blocked
  stuck : faultyOf a f.netIndex = f.value
  diffs : Satisfies a (diffClauses (nextVar cg.netCount) masks.observed)
  some : Std.Sat.CNF.Clause.eval a (diffLits (nextVar cg.netCount) masks.observed) = true

/-- **The clauses mean what `StuckAtModelMode` says**, for well-formed blocked
patterns and at least one observed net. -/
theorem exists_stuckAtCnfMode {cg : CompiledSimGraph} (hcomb : cg.Combinational) (mc : ModeConfig)
    (pis : List AtpgPiInfo) (f : CompactFault) {blocked : List (List Char)}
    (hok : KeysOk pis.length blocked) (hobs : masks.observed ≠ []) :
    ∃ cnf, stuckAtCnfMode cg pis f blocked mc masks = .ok cnf ∧
      ∀ a, Satisfies a cnf ↔ StuckAtModelMode cg mc pis f blocked masks a := by
  have hnodes := foldlM_append_ok
    (fun n hn acc => encodeNodeMode_eq_ok (hcomb n hn) mc masks f acc) ([] : Cnf)
  have hlits : KeysOk (pis.map fun pi => freeLit pi.compiled).length blocked := by simpa using hok
  obtain ⟨block, hblock, hblocksat⟩ := exists_blockPatterns "PIs" hlits
    ([] ++ cg.nodes.flatMap (nodeClausesMode mc masks f) ++ pis.flatMap (tiePi masks f))
  refine ⟨[] ++ cg.nodes.flatMap (nodeClausesMode mc masks f) ++ pis.flatMap (tiePi masks f) ++
    block ++ addUnit (faultLit f) ++ diffClauses (nextVar cg.netCount) masks.observed ++
    [diffLits (nextVar cg.netCount) masks.observed], ?_, fun a => ?_⟩
  · rw [stuckAtCnfMode, hnodes]
    show (do let cnf ← List.foldlM _ _ _; addMiter _ _ _) = _
    rw [hblock]
    show addMiter _ _ _ = _
    rw [addMiter, if_neg (by simpa using hobs)]
  · have hnodesat : Satisfies a (cg.nodes.flatMap (nodeClausesMode mc masks f)) ↔
        ∀ n ∈ cg.nodes, NodeHoldsMode mc masks f.netIndex a n := by
      rw [satisfies_flatMap]
      exact forall₂_congr fun n hn => satisfies_nodeClausesMode (hcomb n hn)
    simp only [List.nil_append, satisfies_append, satisfies_cons, satisfies_nil, and_true,
      hnodesat, hblocksat, satisfies_tiePis, satisfies_addUnit, litValue_faultLit, List.map_map,
      Function.comp_def, litValue_freeLit]
    constructor
    · rintro ⟨⟨⟨⟨⟨h1, h2⟩, h3⟩, h4⟩, h5⟩, h6⟩
      exact ⟨h1, h2, h3, h4, h5, h6⟩
    · rintro ⟨h1, h2, h3, h4, h5, h6⟩
      exact ⟨⟨⟨⟨⟨h1, h2⟩, h3⟩, h4⟩, h5⟩, h6⟩

/-! ## Right answers for a system -/

/-- A test of a system of equations: two machines with unblocked inputs that differ
on one of the nets `D`. -/
structure IsSystemTest (as : List (Assign CompiledNetIndex Bool)) (pis : List AtpgPiInfo)
    (f : CompactFault) (blocked : List (List Char)) (D : List CompiledNetIndex) (v w : Values) :
    Prop where
  pair : Assign.TestPair as f.netIndex f.value v w
  unblocked : keyOf (pis.map fun pi => v pi.compiled) ∉ blocked
  differs : ∃ o ∈ D, v o ≠ w o

/-- **A right answer** in a mode: `SAT` comes with the inputs of a test of the
encoded system, and `UNSAT` means that there is none. -/
structure AnswersMode (cg : CompiledSimGraph) (mc : ModeConfig) (pis : List AtpgPiInfo)
    (f : CompactFault) (blocked : List (List Char)) (r : SolveOutcome (TreeMap String Bool)) :
    Prop where
  known : r.result = .SAT ∨ r.result = .UNSAT
  sat : r.result = .SAT →
    ∃ v w, IsSystemTest (solverAssigns cg mc) pis f blocked mc.observableNets v w ∧
      r.out = some (emitValues (modeInputs cg pis mc) v)
  unsat : r.result = .UNSAT →
    ∀ v w, ¬ IsSystemTest (solverAssigns cg mc) pis f blocked mc.observableNets v w

section Answers

variable {g : CachedGraph} (h : g.Complete) {mc} (hmode : mc.mode ≠ .FUNCTIONAL) {pis}
  (hpis : ∀ pi ∈ pis, pi.compiled ∈ g.cg.piNets)
  (hfree : ∀ i ∈ wbrStimulusNets mc, i ∉ Assign.outs (solverAssigns g.cg mc))
  (hobs : ∀ o ∈ mc.observableNets, o < g.cg.netCount) (hf : f.netIndex < g.cg.netCount)
  {S : Set CompiledNetIndex}
  (hcov : Covers g.cg.gateAssigns f.netIndex (OfPi pis) mc.observableNets masks S)
  {blocked : List (List Char)}

include h hpis in
/-- An input has no equation. -/
theorem input_not_mem_outs {pi : AtpgPiInfo} (hmem : pi ∈ pis) :
    pi.compiled ∉ Assign.outs (solverAssigns g.cg mc) := fun hout =>
  h.single.not_gateDriven h.inputs (hpis pi hmem) (gateDriven_of_mem_outs hout)

include h hpis hfree hcov in
/-- **Models give tests**, with the values of the model on the inputs that the
solver emits. -/
theorem StuckAtModelMode.exists_isSystemTest {a : ℕ → Bool}
    (ha : StuckAtModelMode g.cg mc pis f blocked masks a) :
    ∃ v w, IsSystemTest (solverAssigns g.cg mc) pis f blocked mc.observableNets v w ∧
      ∀ pi ∈ modeInputs g.cg pis mc, v pi.compiled = goodOf a pi.compiled := by
  have heqs : ∀ e ∈ solverAssigns g.cg mc,
      EqHolds masks.inOutcone f.netIndex (masks.inSupport e.out) a e := by
    intro e he
    obtain ⟨n, hn, rfl⟩ := mem_wrapperAssigns.1 he
    obtain ⟨hn, hsrc, hbound⟩ := mem_boundNodes.1 hn
    rw [wrapperAssign_out]
    exact (ha.nodes n hn).bound hsrc hbound
  have htied : ∀ i, (OfPi pis i ∨ ∃ n ∈ g.cg.nodes, solverFree mc n = true ∧ n.out = i) →
      i ≠ f.netIndex → masks.inOutcone i = true → goodOf a i = faultyOf a i := by
    rintro _ (⟨pi, hmem, rfl⟩ | ⟨n, hn, hn', rfl⟩)
    · exact ha.tied pi hmem
    · exact (ha.nodes n hn).tied hn'
  obtain ⟨v, w, hpair, hdiff, -, hbase⟩ := hcov.wrapperAssigns.exists_pair
    (rankedBy_wrapperAssigns h.rankedBy) (nodup_outs_wrapperAssigns h.single) heqs ha.stuck htied
    ((eval_diffLits_iff ha.diffs).1 ha.some)
  have hin : ∀ pi ∈ pis, v pi.compiled = goodOf a pi.compiled := fun pi hmem =>
    hbase _ (input_not_mem_outs h hpis hmem)
  refine ⟨v, w, ⟨hpair, by rw [List.map_congr_left hin]; exact ha.unblocked, hdiff⟩, fun pi hmem => ?_⟩
  rcases List.mem_append.1 hmem with hmem | hmem
  · exact hin pi hmem
  · obtain ⟨i, hi, rfl⟩ := List.mem_map.1 hmem
    exact hbase _ (hfree i hi)

include h hpis hobs hf hcov in
/-- **Tests give models.** -/
theorem IsSystemTest.exists_stuckAtModelMode {v w : Values}
    (ht : IsSystemTest (solverAssigns g.cg mc) pis f blocked mc.observableNets v w) :
    ∃ a, StuckAtModelMode g.cg mc pis f blocked masks a := by
  have hcov' : Covers (solverAssigns g.cg mc) f.netIndex
      (fun i => OfPi pis i ∨ ∃ n ∈ g.cg.nodes, solverFree mc n = true ∧ n.out = i)
      mc.observableNets masks S := hcov.wrapperAssigns
  have hrank : Assign.RankedBy g.rank (solverAssigns g.cg mc) := rankedBy_wrapperAssigns h.rankedBy
  have hlt : ∀ pi ∈ pis, pi.compiled < g.cg.netCount := fun pi hmem =>
    lt_of_mem_piNets h.inputs (hpis pi hmem)
  obtain ⟨hagrees, hdiffs, hsome⟩ := (agrees_dual g.cg.netCount v w).withDiffs le_rfl
    fun o ho => hobs o ((hcov.observed o).1 ho).1
  refine ⟨_, fun n hn => ⟨fun hsrc hbound => ?_, fun hn' hne _ => ?_⟩, fun pi hmem hne _ => ?_, ?_, ?_,
    hdiffs, hsome [] _ rfl (hcov'.exists_observed hrank ht.pair ht.differs)⟩
  · have hnlt : ∀ i, i = n.out ∨ i ∈ n.inputNets → i < g.cg.netCount := by
      rintro i (rfl | hi)
      · exact g.out_lt_netCount hn
      · exact g.reads_lt_netCount hn hi
    have hnet : ∀ i, i = (wrapperAssign (solverZero mc) n).out ∨
        i ∈ (wrapperAssign (solverZero mc) n).reads → i < g.cg.netCount := by
      rintro i (rfl | hi)
      · exact hnlt _ (.inl (wrapperAssign_out _ n))
      · exact hnlt _ (.inr (mem_inputNets_of_reads hi))
    exact EqHolds.of_testPair hrank hcov'.upper ht.pair
      (mem_wrapperAssigns.2 ⟨n, mem_boundNodes.2 ⟨hn, hsrc, hbound⟩, rfl⟩)
      (fun i hi => (hagrees i (hnet i hi)).1) (fun i hi => (hagrees i (hnet i hi)).2) _
  · have hout : n.out ∉ Assign.outs (solverAssigns g.cg mc) := by
      intro hout
      obtain ⟨m, hm, heq⟩ := mem_outs_wrapperAssigns.1 hout
      obtain ⟨hm, -, hbound⟩ := mem_boundNodes.1 hm
      obtain rfl := h.single.eq hm hn heq
      exact absurd (hn'.symm.trans hbound) (by decide)
    rw [(hagrees _ (g.out_lt_netCount hn)).1, (hagrees _ (g.out_lt_netCount hn)).2]
    exact (ht.pair.base _ hout hne).symm
  · rw [(hagrees _ (hlt pi hmem)).1, (hagrees _ (hlt pi hmem)).2]
    exact (ht.pair.base _ (input_not_mem_outs h hpis hmem) hne).symm
  · rw [List.map_congr_left fun pi hmem => (hagrees _ (hlt pi hmem)).1]
    exact ht.unblocked
  · rw [(hagrees _ hf).2, ht.pair.stuck]

include h hmode hpis hfree hobs hf in
/-- **The mode-aware solver answers right** about the system it encodes, under masks
that decide the fault. -/
theorem exists_solveStuckAtFaultMode (solver : SatSolver ℕ) (options : SatSolveOptions)
    (hcov : Covers g.cg.gateAssigns f.netIndex (OfPi pis) mc.observableNets
      (buildConeMasks g.cg f.netIndex mc.observableNets options.coneRestrict) S)
    (hok : KeysOk pis.length options.blockedPatterns) :
    ∃ r, solveStuckAtFaultMode solver g.cg pis f options mc = .ok r ∧
      AnswersMode g.cg mc pis f options.blockedPatterns r := by
  rw [solveStuckAtFaultMode, if_neg hmode]
  dsimp only
  split
  · rename_i hred
    refine ⟨_, rfl, .inr rfl, nofun, fun _ v w ht => ?_⟩
    rw [hcov.decided, List.isEmpty_iff] at hred
    obtain ⟨o, ho, -⟩ := hcov.wrapperAssigns.exists_observed (rankedBy_wrapperAssigns h.rankedBy)
      ht.pair ht.differs
    rw [hred] at ho
    exact List.not_mem_nil ho
  · rename_i hred
    rw [hcov.decided, List.isEmpty_iff] at hred
    obtain ⟨cnf, hcnf, hsat⟩ := exists_stuckAtCnfMode h.comb mc pis f hok hred
    refine ⟨_, by rw [hcnf]; rfl, ?_⟩
    unfold solveAndEmit
    split
    · rename_i a ha
      obtain ⟨v, w, ht, hin⟩ :=
        ((hsat a).1 (solver.sound cnf a ha)).exists_isSystemTest h hpis hfree hcov
      exact ⟨.inl rfl, fun _ => ⟨v, w, ht, by rw [emit_eq_emitValues freeVar hin]⟩, nofun⟩
    · rename_i hnone
      refine ⟨.inr rfl, nofun, fun _ v w ht => ?_⟩
      obtain ⟨a, ha⟩ := ht.exists_stuckAtModelMode h hpis hobs hf hcov
      exact solver.complete cnf hnone a ((hsat a).2 ha)

end Answers

end FaultFlow.Atpg
