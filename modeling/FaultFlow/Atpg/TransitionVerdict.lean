/-
# The two-frame solvers find exactly the transition tests

A `TransitionTest` is a launch of the good machine and a pair of capture machines,
coupled as the launch scheme says, in which the fault net makes its transition and
an observed net differs.  The clauses of the two frames have a model exactly when a
test exists (`exists_solveTwoFrameTransition`), and on a complete netlist the tests
are the pairs of vectors that `GoldenRefSim::simulate_transition_fault` detects.
-/

import FaultFlow.Atpg.Replay
import FaultFlow.Atpg.Transition

namespace FaultFlow

open Lib
open Std (TreeMap)
open Std.Sat (Literal)

/-! ## The golden verdict -/

namespace CachedGraph

variable {g : CachedGraph}

/-- The samples of a launch and a capture are two passes. -/
theorem runCycles_launchCapture (hcomb : g.cg.Combinational) (hord : g.cg.GatesInOrder)
    (hgap : ∀ n ∈ g.cg.nodes, n.IsWrapper → n.GapFree) (v1 v2 : TestVector)
    (fault : Option CompactFault) :
    Golden.runCycles g.cg fault none
        { ffStates := Golden.initialFfStates g.cg (TestVector.launchCapture v1 v2) }
        (TestVector.launchCapture v1 v2).cyclesFor =
      [Golden.combPass g.cg { inputs := v1.inputs } none,
        Golden.combPass g.cg { inputs := v2.inputs } fault] := by
  show Golden.runCycles g.cg fault none _ [_, _] = _
  rw [Golden.runCycles, if_pos rfl, Golden.runCycles, if_pos rfl, Golden.runCycles,
    g.runCycle_values hcomb hord hgap]
  have hidle : g.IdleFalse (Golden.runCycle g.cg fault none
      { ffStates := Golden.initialFfStates g.cg (TestVector.launchCapture v1 v2) }
      { inputs := v1.inputs, sampleOutputs := true, faultActive := false }).values := by
    rw [g.runCycle_values hcomb hord hgap]
    exact g.idleFalse_combPass hgap _ _
  rw [g.runCycle_values_of_idle hcomb hord hgap fault hidle]
  rfl

/-- **Two passes decide a transition fault** on a combinational circuit. -/
theorem simulateTransitionFault_eq (hcomb : g.cg.Combinational) (hord : g.cg.GatesInOrder)
    (hgap : ∀ n ∈ g.cg.nodes, n.IsWrapper → n.GapFree) {f : CompactFault}
    (hexcl : f.exclusion = .NONE) (v1 v2 : TestVector) :
    Golden.simulateTransitionFault g.cg v1 v2 f =
      (Golden.snapshot g.cg (Golden.combPass g.cg { inputs := v1.inputs } none)
          (g.cg.yosysOf f.netIndex) == some f.value &&
        Golden.snapshot g.cg (Golden.combPass g.cg { inputs := v2.inputs } none)
          (g.cg.yosysOf f.netIndex) == some (!f.value) &&
        g.cg.observable.any fun o => Golden.combPass g.cg { inputs := v2.inputs } none o !=
          Golden.combPass g.cg { inputs := v2.inputs } (some f) o) := by
  have hrun := g.runCycles_launchCapture hcomb hord hgap v1 v2
  have hmode : Golden.sequenceMode g.cg (TestVector.launchCapture v1 v2) = none := by
    simp [Golden.sequenceMode, TestVector.launchCapture]
  have hgood : Golden.simulateSequenceFaultFree g.cg (TestVector.launchCapture v1 v2) =
      [Golden.snapshot g.cg (Golden.combPass g.cg { inputs := v1.inputs } none),
        Golden.snapshot g.cg (Golden.combPass g.cg { inputs := v2.inputs } none)] := by
    rw [Golden.simulateSequenceFaultFree, Golden.runSequence, hmode]
    simp only [reduceCtorEq, if_false, hrun, List.map_cons, List.map_nil]
  have hfaulty : Golden.simulateSequenceWithFault g.cg (TestVector.launchCapture v1 v2) f =
      [Golden.snapshot g.cg (Golden.combPass g.cg { inputs := v1.inputs } none),
        Golden.snapshot g.cg (Golden.combPass g.cg { inputs := v2.inputs } (some f))] := by
    rw [Golden.simulateSequenceWithFault, Golden.runSequence, hmode]
    simp only [hexcl, if_true, hrun, List.map_cons, List.map_nil]
  have hlaunch : ∀ s : Snapshot, Golden.isDetected g.cg s s = false := by
    intro s
    simp [Golden.isDetected]
  rw [Golden.simulateTransitionFault, if_neg (not_not.2 hexcl)]
  simp only [hgood, hfaulty, Golden.isSequenceDetected, List.zip_cons_cons, List.zip_nil_right,
    List.any_cons, List.any_nil, hlaunch, Bool.false_or, Bool.or_false, g.isDetected_snapshot]

/-- The value read under the Yosys number of a net is the fault-free value of the
net. -/
theorem snapshot_combPass (hord : g.cg.GatesInOrder) (hone : g.cg.SingleDriver) (vec : TestVector)
    {i : CompiledNetIndex} (hi : i < g.cg.netCount) :
    Golden.snapshot g.cg (Golden.combPass g.cg vec none) (g.cg.yosysOf i) =
      some (Golden.combPass g.cg vec none i) := by
  obtain ⟨s, hs, rfl | ⟨n, hn, htype, hin, rfl⟩⟩ := g.exists_stem hi
  · rw [Golden.snapshot, hs, Option.map_some]
  · have hsrc : ¬ n.IsSource := by simp [SimNode.IsSource, htype]
    have hvalue := (Golden.combPass_solves g.passNodes_eq hord hone vec none).1 n hn hsrc
    rw [Golden.force_none, Golden.plainValue_eq, htype, hin, List.map_singleton,
      evalScalar_buf] at hvalue
    rw [Golden.snapshot, hs, Option.map_some, hvalue]

end CachedGraph

namespace Atpg

/-! ## The clauses of the two frames -/

/-- The value of the launch frame under an assignment of the variables. -/
def launchOf (netCount : ℕ) (a : ℕ → Bool) (i : CompiledNetIndex) : Bool := a (launchVar netCount i)

/-- What the clauses of `solve_two_frame_transition` say of an assignment. -/
structure TwoFrameModel (cg : CompiledSimGraph) (pis : List AtpgPiInfo) (f : CompactFault)
    (blocked : List (List Char)) (couples : List (CompiledNetIndex × CompiledNetIndex))
    (blockLits : List (Literal ℕ)) (masks : ConeMasks) (a : ℕ → Bool) : Prop where
  launch : Assign.Solves cg.gateAssigns (launchOf cg.netCount a)
  nodes : ∀ n ∈ cg.nodes, ¬ n.IsSource →
    NodeHolds masks.inOutcone f.netIndex (masks.inSupport n.out) a n
  tied : ∀ pi ∈ pis, pi.compiled ≠ f.netIndex → masks.inOutcone pi.compiled = true →
    goodOf a pi.compiled = faultyOf a pi.compiled
  coupled : ∀ c ∈ couples, goodOf a c.1 = launchOf cg.netCount a c.2
  unblocked : keyOf (blockLits.map (litValue a)) ∉ blocked
  leaves : launchOf cg.netCount a f.netIndex = f.value
  reaches : goodOf a f.netIndex = !f.value
  stuck : faultyOf a f.netIndex = f.value
  diffs : Satisfies a (diffClauses (nextVar cg.netCount + cg.netCount) masks.observed)
  some : Std.Sat.CNF.Clause.eval a
    (diffLits (nextVar cg.netCount + cg.netCount) masks.observed) = true

@[simp]
theorem litValue_launchLit (a : ℕ → Bool) (netCount : ℕ) (i : CompiledNetIndex) :
    litValue a (launchLit netCount i) = launchOf netCount a i := litValue_pos a _

variable {cg : CompiledSimGraph} {f : CompactFault} {g : CachedGraph} {view : ScanLocView}

theorem satisfies_edgeUnits {a : ℕ → Bool} : Satisfies a (edgeUnits cg f) ↔
      launchOf cg.netCount a f.netIndex = f.value ∧ goodOf a f.netIndex = !f.value := by
  have hvalue : f.value = (f.type != .SA0) := rfl
  rw [edgeUnits, satisfies_append, satisfies_addUnit, satisfies_addUnit, hvalue, goodOf]
  cases f.type with
  | SA0 => simp
  | SA1 => simp [show (FaultType.SA1 != FaultType.SA0) = true from rfl]

/-- The gates of the two frames. -/
theorem exists_encodeFrames (hcomb : cg.Combinational) (masks : ConeMasks) (f : CompactFault) :
    ∃ clauses, cg.nodes.foldlM (encodeFrames cg masks f) [] = .ok clauses ∧
      ∀ a, Satisfies a clauses ↔ Assign.Solves cg.gateAssigns (launchOf cg.netCount a) ∧
        ∀ n ∈ cg.nodes, ¬ n.IsSource →
          NodeHolds masks.inOutcone f.netIndex (masks.inSupport n.out) a n := by
  let launch (n : SimNode) : Cnf := if n.type = .INPUT then [] else
    gateClausesWhere true n.type (n.inputNets.map (launchLit cg.netCount))
      (launchLit cg.netCount n.out)
  have hlaunch : ∀ n ∈ cg.nodes, ∀ a, Satisfies a (launch n) ↔ (¬ n.IsSource →
      launchOf cg.netCount a n.out =
        evalGateScalar n.type (n.inputNets.map (launchOf cg.netCount a))) := by
    intro n hn a
    by_cases hin : n.type = .INPUT
    · have hsrc : n.IsSource := .inl hin
      simp [launch, hin, hsrc]
    · have hsrc : ¬ n.IsSource := not_or.2 ⟨hin, hcomb n hn⟩
      simp only [launch, if_neg hin, satisfies_gateClausesWhere, List.map_map, Function.comp_def,
        litValue_launchLit, hsrc, not_false_eq_true, forall_const]
  refine ⟨cg.nodes.flatMap fun n => launch n ++ nodeClauses masks f n,
    foldlM_append_ok (fun n hn acc => ?_) [], fun a => ?_⟩
  · by_cases hin : n.type = .INPUT
    · simp [encodeFrames, launch, nodeClauses, hin, pure, Except.pure]
    · simp only [encodeFrames, launch, if_neg hin]
      rw [addGateWhere_eq_ok (hcomb n hn) (length_inputNets_le n)]
      show encodeNode _ _ _ _ = _
      rw [encodeNode_eq_ok (hcomb n hn), List.append_assoc]
  · rw [satisfies_flatMap, CompiledSimGraph.solves_gateAssigns_iff, ← forall₂_and]
    refine forall₂_congr fun n hn => ?_
    rw [satisfies_append, hlaunch n hn, satisfies_nodeClauses_iff (hcomb n hn)]

/-- **The clauses mean what `TwoFrameModel` says**, for well-formed blocked pairs and
at least one observed net. -/
theorem exists_twoFrameCnf (hcomb : cg.Combinational) (pis : List AtpgPiInfo) (f : CompactFault)
    {blocked : List (List Char)} (couples : List (CompiledNetIndex × CompiledNetIndex))
    {blockLits : List (Literal ℕ)} (hok : KeysOk blockLits.length blocked) {masks : ConeMasks}
    (hobs : masks.observed ≠ []) :
    ∃ cnf, twoFrameCnf cg pis f blocked couples blockLits masks = .ok cnf ∧
      ∀ a, Satisfies a cnf ↔ TwoFrameModel cg pis f blocked couples blockLits masks a := by
  obtain ⟨nodes, hnodes, hnodesat⟩ := exists_encodeFrames hcomb masks f
  obtain ⟨block, hblock, hblocksat⟩ := exists_blockPatterns "PI/PPI literals" hok
    (nodes ++ pis.flatMap (tiePi masks f) ++ couples.flatMap (coupleFrames cg))
  have hcouples : ∀ a, Satisfies a (couples.flatMap (coupleFrames cg)) ↔
      ∀ c ∈ couples, goodOf a c.1 = launchOf cg.netCount a c.2 := by
    intro a
    rw [satisfies_flatMap]
    refine forall₂_congr fun c _ => ?_
    rw [coupleFrames, satisfies_addEquiv, litValue_launchLit, litValue_freeLit, goodOf]
  refine ⟨nodes ++ pis.flatMap (tiePi masks f) ++ couples.flatMap (coupleFrames cg) ++ block ++
    edgeUnits cg f ++ addUnit (faultLit f) ++
    diffClauses (nextVar cg.netCount + cg.netCount) masks.observed ++
    [diffLits (nextVar cg.netCount + cg.netCount) masks.observed], ?_, fun a => ?_⟩
  · rw [twoFrameCnf, hnodes]
    show (do let cnf ← List.foldlM _ _ _; addMiter _ _ _) = _
    rw [hblock]
    show addMiter _ _ _ = _
    rw [addMiter, if_neg (by simpa using hobs)]
  · simp only [satisfies_append, satisfies_cons, satisfies_nil, and_true, hnodesat, hblocksat,
      hcouples, satisfies_tiePis, satisfies_edgeUnits, satisfies_addUnit, litValue_faultLit]
    constructor
    · rintro ⟨⟨⟨⟨⟨⟨⟨⟨h1, h2⟩, h3⟩, h4⟩, h5⟩, h6, h7⟩, h8⟩, h9⟩, h10⟩
      exact ⟨h1, h2, h3, h4, h5, h6, h7, h8, h9, h10⟩
    · rintro ⟨h1, h2, h3, h4, h5, h6, h7, h8, h9, h10⟩
      exact ⟨⟨⟨⟨⟨⟨⟨⟨h1, h2⟩, h3⟩, h4⟩, h5⟩, h6, h7⟩, h8⟩, h9⟩, h10⟩

/-! ## Launch schemes -/

/-- How the capture inputs follow from the launch. -/
inductive Launch where
  | broadside
  | loc (couples : List LocCouple) (heldPis : List CompiledNetIndex)
  | los (couples : List LosCouple) (headPpis heldPis : List CompiledNetIndex)

namespace Launch

/-- The solver of a scheme. -/
def solve (s : Launch) (solver : SatSolver ℕ) (cg : CompiledSimGraph) (pis : List AtpgPiInfo)
    (fault : CompactFault) (options : SatSolveOptions) :
    Except FlowError (SolveOutcome (TreeMap String Bool × TreeMap String Bool)) :=
  match s with
  | broadside => solveTransitionFault solver cg pis fault options
  | loc couples heldPis => solveScanTransitionFault solver cg pis couples heldPis fault options
  | los couples headPpis heldPis =>
    solveScanLosTransitionFault solver cg pis couples headPpis heldPis fault options

/-- The capture nets that a scheme couples, each with its launch net. -/
def couples : Launch → List (CompiledNetIndex × CompiledNetIndex)
  | broadside => []
  | loc couples heldPis =>
    couples.map (fun c => (c.ppiCompiled, c.ppoCompiled)) ++ heldPis.map holdPi
  | los couples _ heldPis =>
    couples.map (fun c => (c.capturePpiCompiled, c.predPpiCompiled)) ++ heldPis.map holdPi

/-- The capture nets of a blocked key, after the launch inputs. -/
def captureKey (pis : List AtpgPiInfo) : Launch → List CompiledNetIndex
  | broadside => pis.map AtpgPiInfo.compiled
  | loc _ _ => []
  | los _ headPpis _ => headPpis

/-- The nets of a scheme are what `fault_solver.hpp` asks for: inputs, and for the
next state of a flip-flop a net of the circuit. -/
def WellFormed (cg : CompiledSimGraph) : Launch → Prop
  | broadside => True
  | loc couples heldPis =>
    (∀ c ∈ couples, c.ppiCompiled ∈ cg.piNets ∧ c.ppoCompiled < cg.netCount) ∧
      ∀ i ∈ heldPis, i ∈ cg.piNets
  | los couples headPpis heldPis =>
    (∀ c ∈ couples, c.capturePpiCompiled ∈ cg.piNets ∧ c.predPpiCompiled ∈ cg.piNets) ∧
      (∀ i ∈ headPpis, i ∈ cg.piNets) ∧ ∀ i ∈ heldPis, i ∈ cg.piNets

theorem WellFormed.mem_couples {cg : CompiledSimGraph} (hpi : ∀ i ∈ cg.piNets, i < cg.netCount)
    {s : Launch} (h : s.WellFormed cg) {c : CompiledNetIndex × CompiledNetIndex}
    (hc : c ∈ s.couples) : c.1 ∈ cg.piNets ∧ c.2 < cg.netCount := by
  cases s with
  | broadside => exact absurd hc List.not_mem_nil
  | loc couples held =>
    rcases List.mem_append.1 hc with hc | hc
    · obtain ⟨c, hmem, rfl⟩ := List.mem_map.1 hc
      exact h.1 c hmem
    · obtain ⟨i, hi, rfl⟩ := List.mem_map.1 hc
      exact ⟨h.2 i hi, hpi i (h.2 i hi)⟩
  | los couples heads held =>
    rcases List.mem_append.1 hc with hc | hc
    · obtain ⟨c, hmem, rfl⟩ := List.mem_map.1 hc
      exact ⟨(h.1 c hmem).1, hpi _ (h.1 c hmem).2⟩
    · obtain ⟨i, hi, rfl⟩ := List.mem_map.1 hc
      exact ⟨h.2.2 i hi, hpi i (h.2.2 i hi)⟩

theorem WellFormed.mem_captureKey {cg : CompiledSimGraph} {s : Launch} (h : s.WellFormed cg)
    {pis : List AtpgPiInfo} (hpis : ∀ pi ∈ pis, pi.compiled ∈ cg.piNets) {i : CompiledNetIndex}
    (hi : i ∈ s.captureKey pis) : i ∈ cg.piNets := by
  cases s with
  | broadside =>
    obtain ⟨pi, hmem, rfl⟩ := List.mem_map.1 hi
    exact hpis pi hmem
  | loc couples held => exact absurd hi List.not_mem_nil
  | los couples heads held => exact h.2.1 i hi

/-- The literals of a blocked key. -/
def blockLits (s : Launch) (cg : CompiledSimGraph) (pis : List AtpgPiInfo) : List (Literal ℕ) :=
  (pis.map fun pi => launchLit cg.netCount pi.compiled) ++ (s.captureKey pis).map freeLit

/-- The three solvers are one. -/
theorem solve_eq (s : Launch) (solver : SatSolver ℕ) (cg : CompiledSimGraph)
    (pis : List AtpgPiInfo) (fault : CompactFault) (options : SatSolveOptions) :
    s.solve solver cg pis fault options =
      let masks := buildConeMasks cg fault.netIndex cg.observable options.coneRestrict
      if masks.redundant then return { result := .UNSAT, out := none }
      else do
        let cnf ← twoFrameCnf cg pis fault options.blockedPatterns s.couples (s.blockLits cg pis) masks
        return solveAndEmit solver (emitFrames cg pis) cnf := by
  cases s with
  | broadside =>
    have hlits : (pis.map fun pi => freeLit pi.compiled) =
        (pis.map AtpgPiInfo.compiled).map freeLit := by rw [List.map_map]; rfl
    simp only [solve, solveTransitionFault, solveTwoFrameTransition, hlits]
    rfl
  | loc couples held => rfl
  | los couples heads held => rfl

end Launch

/-- **A transition test**: a launch of the good machine and a pair of capture machines
that the scheme couples, in which the good machine makes the transition at the
faulty net, with a difference on an observation point. -/
structure TransitionTest (s : Launch) (cg : CompiledSimGraph) (pis : List AtpgPiInfo)
    (f : CompactFault) (blocked : List (List Char)) (l v w : Values) : Prop where
  launch : Assign.Solves cg.gateAssigns l
  pair : Assign.TestPair cg.gateAssigns f.netIndex f.value v w
  coupled : ∀ c ∈ s.couples, v c.1 = l c.2
  unblocked : keyOf ((pis.map fun pi => l pi.compiled) ++ (s.captureKey pis).map v) ∉ blocked
  leaves : l f.netIndex = f.value
  reaches : v f.netIndex = !f.value
  differs : ∃ o ∈ cg.observable, v o ≠ w o

/-- The couple of a port is that of its bit and of a bit of the matching port. -/
theorem mem_locCouple {parsed : ParsedModule} {name : String} {port : ParsedPort}
    {cs : List LocCouple} (hok : locCouple parsed cg name port = .ok cs) {c : LocCouple}
    (hc : c ∈ cs) : ∃ b ppoBit : YosysNetID, port.bits = [b] ∧ port.direction = "input" ∧
      cg.yosysToCompiled[b]? = some c.ppiCompiled ∧
      cg.yosysToCompiled[ppoBit]? = some c.ppoCompiled := by
  unfold locCouple at hok
  split at hok
  · rename_i b hbits
    split at hok
    · rename_i hport
      split at hok
      · cases hok
        exact absurd hc List.not_mem_nil
      · rename_i ppi hppi
        dsimp only at hok
        split at hok
        · rename_i ppoBit _
          split at hok
          · rename_i ppo hppo
            cases hok
            obtain rfl := List.mem_singleton.1 hc
            exact ⟨b, ppoBit, hbits, hport.1, hppi, hppo⟩
          · cases hok
        · cases hok
    · cases hok
      exact absurd hc List.not_mem_nil
  · cases hok
    exact absurd hc List.not_mem_nil

/-- **The couples of a scan view are well-formed.** -/
theorem buildScanLocView_wellFormed (hview : buildScanLocView g.parsed g.cg = .ok view) :
    (Launch.loc view.couples view.heldPis).WellFormed g.cg := by
  have hinput : ∀ p ∈ g.parsed.ports.toList, p.2.direction = "input" → ∀ b ∈ p.2.bits, ∀ i,
      g.cg.yosysToCompiled[b]? = some i → i ∈ g.cg.piNets := fun p hp hdir b hb i hi =>
    g.mem_piNets_iff.2 (.inl ⟨b, (NormalizedGraph.mem_PIs g.normalized).2 ⟨p, hp, hdir, hb⟩, hi⟩)
  obtain ⟨couples, hcouples, hret⟩ := bind_eq_ok.1 hview
  cases hret
  refine ⟨?_, fun i hi => ?_⟩
  · refine foldlM_invariant (fun cs : List LocCouple => ∀ c ∈ cs,
      c.ppiCompiled ∈ g.cg.piNets ∧ c.ppoCompiled < g.cg.netCount) hcouples (by simp) ?_
    intro p hp cs cs' hinv hstep
    obtain ⟨new, hnew, hret⟩ := bind_eq_ok.1 hstep
    cases hret
    intro c hc
    rcases List.mem_append.1 hc with hc | hc
    · exact hinv c hc
    · obtain ⟨b, ppoBit, hbits, hdir, hppi, hppo⟩ := mem_locCouple hnew hc
      exact ⟨hinput p hp hdir b (by simp [hbits]) _ hppi, lt_of_yosysToCompiled hppo⟩
  · obtain ⟨p, hp, hi⟩ := List.mem_flatMap.1 hi
    split at hi
    · rename_i hdir
      obtain ⟨b, hb, hi⟩ := List.mem_filterMap.1 hi
      exact hinput p hp hdir.1 b hb i hi
    · exact absurd hi List.not_mem_nil

section Verdict

variable (h : g.Equational) (hpi : g.cg.InputsDriven) {pis : List AtpgPiInfo}
  (hpis : ∀ pi ∈ pis, pi.compiled ∈ g.cg.piNets) (hf : f.netIndex < g.cg.netCount) {s : Launch}
  (hs : s.WellFormed g.cg) {masks : ConeMasks} {S : Set CompiledNetIndex}
  (hcov : Covers g.cg.gateAssigns f.netIndex (OfPi pis) g.cg.observable masks S)
  {blocked : List (List Char)}

theorem map_litValue_blockLits (s : Launch) (cg : CompiledSimGraph) (pis : List AtpgPiInfo)
    (a : ℕ → Bool) : (s.blockLits cg pis).map (litValue a) =
      (pis.map fun pi => launchOf cg.netCount a pi.compiled) ++ (s.captureKey pis).map (goodOf a) := by
  simp only [Launch.blockLits, List.map_append, List.map_map, Function.comp_def, litValue_launchLit,
    litValue_freeLit]
  rfl

include h hpi hpis hs hcov in
/-- **Models give tests**, with the inputs of both frames. -/
theorem TwoFrameModel.exists_test {a : ℕ → Bool} (hfS : f.netIndex ∈ S)
    (ha : TwoFrameModel g.cg pis f blocked s.couples (s.blockLits g.cg pis) masks a) :
    ∃ l v w, TransitionTest s g.cg pis f blocked l v w ∧
      (∀ pi ∈ pis, l pi.compiled = launchOf g.cg.netCount a pi.compiled) ∧
      ∀ pi ∈ pis, v pi.compiled = goodOf a pi.compiled := by
  have heqs : ∀ e ∈ g.cg.gateAssigns,
      EqHolds masks.inOutcone f.netIndex (masks.inSupport e.out) a e := by
    intro e he
    obtain ⟨n, hn, hsrc, rfl⟩ := CompiledSimGraph.mem_gateAssigns.1 he
    exact eqHolds_gateAssign.2 (ha.nodes n hn hsrc)
  have htied : ∀ i, OfPi pis i → i ≠ f.netIndex → masks.inOutcone i = true →
      goodOf a i = faultyOf a i := by
    rintro _ ⟨pi, hmem, rfl⟩
    exact ha.tied pi hmem
  obtain ⟨v, w, hpair, hdiff, hS, hbase⟩ := hcov.exists_pair h.rankedBy h.nodup heqs ha.stuck htied
    ((eval_diffLits_iff ha.diffs).1 ha.some)
  -- an input has its value even outside the cone
  have hin : ∀ i ∈ g.cg.piNets, v i = goodOf a i := fun i hi =>
    hbase i (mt CompiledSimGraph.mem_outs_gateAssigns.1 (h.single.not_gateDriven hpi hi))
  refine ⟨launchOf g.cg.netCount a, v, w, ⟨ha.launch, hpair, fun c hc => ?_, ?_, ha.leaves, ?_, hdiff⟩,
    fun _ _ => rfl, fun pi hmem => hin _ (hpis pi hmem)⟩
  · rw [hin _ (hs.mem_couples (fun _ => lt_of_mem_piNets hpi) hc).1, ha.coupled c hc]
  · have hkey := ha.unblocked
    rwa [map_litValue_blockLits, ← List.map_congr_left fun i hi =>
      hin i (hs.mem_captureKey hpis hi)] at hkey
  · rw [hS _ hfS, ha.reaches]

include h hpi hpis hf hs hcov in
/-- **Tests give models.** -/
theorem TransitionTest.exists_model {l v w : Values}
    (ht : TransitionTest s g.cg pis f blocked l v w) :
    ∃ a, TwoFrameModel g.cg pis f blocked s.couples (s.blockLits g.cg pis) masks a := by
  let n := g.cg.netCount
  let a := withDiffs (nextVar n + n) (extend (nextVar n) (dual v w) ((List.range n).map l))
    masks.observed
  obtain ⟨hagrees, hdiffs, hsome⟩ := ((agrees_dual n v w).extend le_rfl ((List.range n).map l)).withDiffs
    (Nat.le_add_right (nextVar n) n) fun o ho => lt_of_mem_observable ((hcov.observed o).1 ho).1
  have hlaunch : ∀ i < n, launchOf n a i = l i := by
    intro i hi
    have hlt : launchVar n i < nextVar n + n := Nat.add_lt_add_left hi _
    rw [launchOf, show a (launchVar n i) = _ from extend_of_lt _ _ hlt, launchVar, extend_add,
      List.getD_eq_getElem?_getD, List.getElem?_map, List.getElem?_range hi]
    rfl
  have hlt : ∀ i ∈ g.cg.piNets, i < n := fun i hi => lt_of_mem_piNets hpi hi
  refine ⟨a, ?_, fun m hm hsrc => nodeHolds_of_testPair h hcov.upper ht.pair hagrees hm hsrc _,
    fun pi hmem hne _ => ?_, fun c hc => ?_, ?_, ?_, ?_, ?_, hdiffs,
    hsome [] _ rfl (hcov.exists_observed h.rankedBy ht.pair ht.differs)⟩
  · intro e he
    obtain ⟨m, hm, -, rfl⟩ := CompiledSimGraph.mem_gateAssigns.1 he
    show launchOf n a m.out = _
    rw [hlaunch _ (g.out_lt_netCount hm)]
    refine (ht.launch _ he).trans (Assign.congr _ _ _ fun i hi => ?_)
    exact (hlaunch i (g.reads_lt_netCount hm hi)).symm
  · have hi := hpis pi hmem
    rw [(hagrees _ (hlt _ hi)).1, (hagrees _ (hlt _ hi)).2]
    exact (ht.pair.base _ (mt CompiledSimGraph.mem_outs_gateAssigns.1
      (h.single.not_gateDriven hpi hi)) hne).symm
  · obtain ⟨hcapture, hnet⟩ := hs.mem_couples hlt hc
    rw [(hagrees _ (hlt _ hcapture)).1, hlaunch _ hnet, ht.coupled c hc]
  · rw [map_litValue_blockLits, List.map_congr_left fun pi hmem => hlaunch _ (hlt _ (hpis pi hmem)),
      List.map_congr_left fun i hi => (hagrees i (hlt i (hs.mem_captureKey hpis hi))).1]
    exact ht.unblocked
  · rw [hlaunch _ hf, ht.leaves]
  · rw [(hagrees _ hf).1, ht.reaches]
  · rw [(hagrees _ hf).2, ht.pair.stuck]

/-- **A right answer**: `SAT` comes with the inputs of both frames of a test, and
`UNSAT` means that there is none. -/
structure TransitionAnswers (s : Launch) (cg : CompiledSimGraph) (pis : List AtpgPiInfo)
    (f : CompactFault) (blocked : List (List Char))
    (r : SolveOutcome (TreeMap String Bool × TreeMap String Bool)) : Prop where
  known : r.result = .SAT ∨ r.result = .UNSAT
  sat : r.result = .SAT → ∃ l v w, TransitionTest s cg pis f blocked l v w ∧
    r.out = some (emitValues pis l, emitValues pis v)
  unsat : r.result = .UNSAT → ∀ l v w, ¬ TransitionTest s cg pis f blocked l v w

include h hpi hpis hf hs in
/-- **The two-frame solvers answer right** under masks that decide the fault. -/
theorem exists_solve (solver : SatSolver ℕ) (options : SatSolveOptions)
    (hcov : Covers g.cg.gateAssigns f.netIndex (OfPi pis) g.cg.observable
      (buildConeMasks g.cg f.netIndex g.cg.observable options.coneRestrict) S)
    (hfS : f.netIndex ∈ S)
    (hok : KeysOk (pis.length + (s.captureKey pis).length) options.blockedPatterns) :
    ∃ r, s.solve solver g.cg pis f options = .ok r ∧
      TransitionAnswers s g.cg pis f options.blockedPatterns r := by
  rw [s.solve_eq]
  dsimp only
  split
  · rename_i hred
    refine ⟨_, rfl, .inr rfl, nofun, fun _ l v w ht => ?_⟩
    rw [hcov.decided, List.isEmpty_iff] at hred
    obtain ⟨o, ho, -⟩ := hcov.exists_observed h.rankedBy ht.pair ht.differs
    rw [hred] at ho
    exact List.not_mem_nil ho
  · rename_i hred
    rw [hcov.decided, List.isEmpty_iff] at hred
    have hlits : KeysOk (s.blockLits g.cg pis).length options.blockedPatterns := by
      simpa [Launch.blockLits] using hok
    obtain ⟨cnf, hcnf, hsat⟩ := exists_twoFrameCnf h.comb pis f s.couples hlits hred
    refine ⟨_, by rw [hcnf]; rfl, ?_⟩
    unfold solveAndEmit
    split
    · rename_i a ha
      obtain ⟨l, v, w, ht, hl, hv⟩ := ((hsat a).1 (solver.sound cnf a ha)).exists_test h hpi hpis hs
        hcov hfS
      refine ⟨.inl rfl, fun _ => ⟨l, v, w, ht, ?_⟩, nofun⟩
      rw [emitFrames, emit_eq_emitValues freeVar hv, emit_eq_emitValues (launchVar _) hl]
    · rename_i hnone
      refine ⟨.inr rfl, nofun, fun _ l v w ht => ?_⟩
      obtain ⟨a, ha⟩ := ht.exists_model h hpi hpis hf hs hcov
      exact solver.complete cnf hnone a ((hsat a).2 ha)

end Verdict

/-! ## Golden pairs of vectors -/

/-- The vector of values of the Yosys nets. -/
def netVector (pis : List AtpgPiInfo) (x : YosysNetID → Bool) : TestVector :=
  piVector pis fun pi => x pi.yosysId

namespace Launch

/-- The pair of vectors satisfies the scheme: in launch on capture the scan state is
what the golden reference captures from the launch vector, in launch on shift it is
the launch value of the predecessor, and held inputs keep their value. -/
def Coupled (cg : CompiledSimGraph) (pis : List AtpgPiInfo) (x1 x2 : YosysNetID → Bool) :
    Launch → Prop
  | broadside => True
  | loc couples heldPis =>
    (∀ c ∈ couples, Golden.simulateFaultFree cg (netVector pis x1) (cg.yosysOf c.ppoCompiled) =
      some (x2 (cg.yosysOf c.ppiCompiled))) ∧
      ∀ i ∈ heldPis, x2 (cg.yosysOf i) = x1 (cg.yosysOf i)
  | los couples _ heldPis =>
    (∀ c ∈ couples, x2 (cg.yosysOf c.capturePpiCompiled) = x1 (cg.yosysOf c.predPpiCompiled)) ∧
      ∀ i ∈ heldPis, x2 (cg.yosysOf i) = x1 (cg.yosysOf i)

/-- The blocked key of a pair of vectors. -/
def pairKey (s : Launch) (cg : CompiledSimGraph) (pis : List AtpgPiInfo)
    (x1 x2 : YosysNetID → Bool) : List Char :=
  keyOf ((pis.map fun pi => x1 pi.yosysId) ++ (s.captureKey pis).map fun i => x2 (cg.yosysOf i))

end Launch

section Golden

variable (h : g.Complete)

/-- The values of the Yosys nets are those of the inputs. -/
def Drives (g : CachedGraph) (x : YosysNetID → Bool) (v : Values) : Prop :=
  ∀ i ∈ g.cg.piNets, x (g.cg.yosysOf i) = v i

theorem exists_drives (g : CachedGraph) (v : Values) : ∃ x, Drives g x v := by
  obtain ⟨x, hx⟩ := exists_netValues (stemInputs_orderedPis g) v
  refine ⟨x, fun i hi => ?_⟩
  obtain ⟨pi, hmem, rfl⟩ := exists_mem_orderedPis hi
  rw [(mem_orderedPis hmem).2, hx pi hmem]

variable {x : YosysNetID → Bool} {v l : Values} {x1 x2 : YosysNetID → Bool} {v1 v2 : TestVector}
  {blocked : List (List Char)}

theorem Drives.eq_of_mem (hx : Drives g x v) {pi : AtpgPiInfo}
    (hmem : pi ∈ orderedPis g.parsed g.cg) : x pi.yosysId = v pi.compiled := by
  obtain ⟨hpi, hyosys⟩ := mem_orderedPis hmem
  rw [← hyosys, hx _ hpi]

include h in
theorem drives_combPass (x : YosysNetID → Bool) :
    Drives g x (Golden.combPass g.cg (netVector (orderedPis g.parsed g.cg) x) none) := by
  intro i hi
  rw [h.combPass_input _ hi]
  exact (piVector_inputs (v := fun i => x (g.cg.yosysOf i))
    (fun pi hmem => by rw [(mem_orderedPis hmem).2]) hi).symm

variable {i : CompiledNetIndex}

include h in
/-- The fault-free pass of a vector is the only solution with its inputs. -/
theorem combPass_eq_of_inputs {vec : TestVector} (hl : Assign.Solves g.cg.gateAssigns l)
    (hin : ∀ i ∈ g.cg.piNets, vec.inputs.getD (g.cg.yosysOf i) false = l i) (hi : i < g.cg.netCount) :
    Golden.combPass g.cg vec none i = l i := by
  obtain ⟨w, hw⟩ := Assign.exists_faulty h.nodup h.rankedBy hl i false
  exact (h.eq_combPass (f := { netIndex := i }) rfl hi hw hin hi).1

theorem netVector_inputs (hx : Drives g x v) (hi : i ∈ g.cg.piNets) :
    (netVector (orderedPis g.parsed g.cg) x).inputs.getD (g.cg.yosysOf i) false = v i :=
  piVector_inputs (fun _ hmem => hx.eq_of_mem hmem) hi

include h in
/-- The golden reference reads the launch value of a net under its Yosys number. -/
theorem simulateFaultFree_yosysOf (hl : Assign.Solves g.cg.gateAssigns l) (hx : Drives g x l)
    (hi : i < g.cg.netCount) :
    Golden.simulateFaultFree g.cg (netVector (orderedPis g.parsed g.cg) x) (g.cg.yosysOf i) =
      some (l i) := by
  have hsingle : ¬ (g.cg.ffConfigs ≠ [] ∨
      (netVector (orderedPis g.parsed g.cg) x).isSequential = true) := by
    simp [g.ffConfigs_eq_nil h.comb, TestVector.isSequential, netVector, piVector]
  rw [Golden.simulateFaultFree, if_neg hsingle, g.snapshot_combPass h.gatesInOrder h.single _ hi,
    combPass_eq_of_inputs h hl (fun _ hi => netVector_inputs hx hi) hi]

variable {s : Launch}

include h in
/-- **The scheme on vectors is the scheme on values.** -/
theorem coupled_iff (hs : s.WellFormed g.cg) (hl : Assign.Solves g.cg.gateAssigns l)
    (hx1 : Drives g x1 l) (hx2 : Drives g x2 v) :
    s.Coupled g.cg (orderedPis g.parsed g.cg) x1 x2 ↔ ∀ c ∈ s.couples, v c.1 = l c.2 := by
  have hheld : ∀ {held : List CompiledNetIndex}, (∀ i ∈ held, i ∈ g.cg.piNets) →
      ((∀ i ∈ held, x2 (g.cg.yosysOf i) = x1 (g.cg.yosysOf i)) ↔
        ∀ c ∈ held.map holdPi, v c.1 = l c.2) := by
    intro held hmem
    rw [List.forall_mem_map]
    exact forall₂_congr fun i hi => by rw [hx2 i (hmem i hi), hx1 i (hmem i hi)]; rfl
  cases s with
  | broadside => simp [Launch.Coupled, Launch.couples]
  | loc couples held =>
    rw [Launch.Coupled, Launch.couples, List.forall_mem_append, hheld hs.2]
    refine and_congr_left' ?_
    rw [List.forall_mem_map]
    refine forall₂_congr fun c hc => ?_
    rw [simulateFaultFree_yosysOf h hl hx1 (hs.1 c hc).2, hx2 _ (hs.1 c hc).1, Option.some_inj,
      eq_comm]
  | los couples heads held =>
    rw [Launch.Coupled, Launch.couples, List.forall_mem_append, hheld hs.2.2]
    refine and_congr_left' ?_
    rw [List.forall_mem_map]
    refine forall₂_congr fun c hc => ?_
    rw [hx2 _ (hs.1 c hc).1, hx1 _ (hs.1 c hc).2]

theorem pairKey_eq (hs : s.WellFormed g.cg) (hx1 : Drives g x1 l) (hx2 : Drives g x2 v) :
    s.pairKey g.cg (orderedPis g.parsed g.cg) x1 x2 =
      keyOf (((orderedPis g.parsed g.cg).map fun pi => l pi.compiled) ++
        (s.captureKey (orderedPis g.parsed g.cg)).map v) := by
  rw [Launch.pairKey, List.map_congr_left fun pi hmem => hx1.eq_of_mem hmem,
    List.map_congr_left fun i hi => hx2 i (hs.mem_captureKey (fun pi hm => (mem_orderedPis hm).1) hi)]

variable (hgap : ∀ n ∈ g.cg.nodes, n.IsWrapper → n.GapFree) (hexcl : f.exclusion = .NONE)
  (hf : f.netIndex < g.cg.netCount)

include h hgap hexcl hf in
/-- The golden verdict on the values of the three passes. -/
theorem simulateTransitionFault_iff : Golden.simulateTransitionFault g.cg v1 v2 f = true ↔
      Golden.combPass g.cg v1 none f.netIndex = f.value ∧
      Golden.combPass g.cg v2 none f.netIndex = (!f.value) ∧
      ∃ o ∈ g.cg.observable, Golden.combPass g.cg v2 none o ≠ Golden.combPass g.cg v2 (some f) o := by
  rw [g.simulateTransitionFault_eq h.comb h.gatesInOrder hgap hexcl,
    g.snapshot_combPass h.gatesInOrder h.single _ hf, g.snapshot_combPass h.gatesInOrder h.single _ hf]
  simp only [Bool.and_eq_true, beq_iff_eq, Option.some_inj, List.any_eq_true, bne_iff_ne, and_assoc]
  rfl

include h hgap hexcl hf in
/-- A test is detected by every pair of vectors with its inputs. -/
theorem TransitionTest.detects {pis : List AtpgPiInfo} {w : Values}
    (ht : TransitionTest s g.cg pis f blocked l v w)
    (hin1 : ∀ i ∈ g.cg.piNets, v1.inputs.getD (g.cg.yosysOf i) false = l i)
    (hin2 : ∀ i ∈ g.cg.piNets, v2.inputs.getD (g.cg.yosysOf i) false = v i) :
    Golden.simulateTransitionFault g.cg v1 v2 f = true := by
  rw [simulateTransitionFault_iff h hgap hexcl hf]
  obtain ⟨o, ho, hne⟩ := ht.differs
  refine ⟨?_, ?_, o, ho, ?_⟩
  · rw [combPass_eq_of_inputs h ht.launch hin1 hf, ht.leaves]
  · rw [(h.eq_combPass hexcl hf ht.pair hin2 hf).1, ht.reaches]
  · obtain ⟨hgood, hfaulty⟩ := h.eq_combPass hexcl hf ht.pair hin2 (lt_of_mem_observable ho)
    rwa [hgood, hfaulty]

include h hgap hexcl hf in
/-- A pair of vectors that is detected is a test. -/
theorem transitionTest_replay (hs : s.WellFormed g.cg) {blocked : List (List Char)}
    {x1 x2 : YosysNetID → Bool} (hc : s.Coupled g.cg (orderedPis g.parsed g.cg) x1 x2)
    (hkey : s.pairKey g.cg (orderedPis g.parsed g.cg) x1 x2 ∉ blocked)
    (hdet : Golden.simulateTransitionFault g.cg (netVector (orderedPis g.parsed g.cg) x1)
      (netVector (orderedPis g.parsed g.cg) x2) f = true) :
    ∃ l v w, TransitionTest s g.cg (orderedPis g.parsed g.cg) f blocked l v w := by
  obtain ⟨hleaves, hreaches, hdiff⟩ := (simulateTransitionFault_iff h hgap hexcl hf).1 hdet
  have hpair := fun vec => h.combPass_testPair h.gatesInOrder vec hexcl (h.driven f.netIndex hf)
  have hx1 := drives_combPass h x1
  have hx2 := drives_combPass h x2
  refine ⟨_, _, _, (hpair _).good, hpair _, (coupled_iff h hs (hpair _).good hx1 hx2).1 hc, ?_,
    hleaves, hreaches, hdiff⟩
  rwa [← pairKey_eq hs hx1 hx2]

end Golden

/-- **The two-frame solvers agree with the golden reference**, for every launch
scheme and both encodings.  `UNSAT` means that no unblocked pair of vectors of the
scheme is detected, and the maps that come with `SAT` are such a pair. -/
theorem solve_iff_simulateTransitionFault (s : Launch) (solver : SatSolver ℕ) (g : CachedGraph)
    (hcomb : g.cg.Combinational) (hac : g.ng.Acyclic)
    (hdriven : ∀ i < g.cg.netCount, g.cg.Driven i) (hone : g.cg.SingleDriver)
    (hpi : g.cg.InputsDriven) (hgap : ∀ n ∈ g.cg.nodes, n.IsWrapper → n.GapFree)
    (hnames : ((orderedPis g.parsed g.cg).map AtpgPiInfo.name).Nodup) (hs : s.WellFormed g.cg)
    (f : CompactFault) (hf : f.netIndex < g.cg.netCount) (hexcl : f.exclusion = .NONE)
    (options : SatSolveOptions) (hobs : options.coneRestrict = true ∨ g.cg.observable ≠ [])
    (hok : KeysOk ((orderedPis g.parsed g.cg).length +
      (s.captureKey (orderedPis g.parsed g.cg)).length) options.blockedPatterns) :
    ∃ r, s.solve solver g.cg (orderedPis g.parsed g.cg) f options = .ok r ∧
      (r.result = .UNSAT ↔ ∀ x1 x2 : YosysNetID → Bool,
        s.Coupled g.cg (orderedPis g.parsed g.cg) x1 x2 →
        s.pairKey g.cg (orderedPis g.parsed g.cg) x1 x2 ∉ options.blockedPatterns →
        Golden.simulateTransitionFault g.cg (netVector (orderedPis g.parsed g.cg) x1)
          (netVector (orderedPis g.parsed g.cg) x2) f = false) ∧
      (r.result = .SAT → ∃ m1 m2 x1 x2, r.out = some (m1, m2) ∧
        (∀ pi ∈ orderedPis g.parsed g.cg, m1.getD pi.name false = x1 pi.yosysId ∧
          m2.getD pi.name false = x2 pi.yosysId) ∧
        s.Coupled g.cg (orderedPis g.parsed g.cg) x1 x2 ∧
        s.pairKey g.cg (orderedPis g.parsed g.cg) x1 x2 ∉ options.blockedPatterns ∧
        Golden.simulateTransitionFault g.cg (mapVector (orderedPis g.parsed g.cg) m1)
          (mapVector (orderedPis g.parsed g.cg) m2) f = true) := by
  have h : g.Complete := ⟨⟨hcomb, hac, hone⟩, hpi, hdriven⟩
  have hpis : ∀ pi ∈ orderedPis g.parsed g.cg, pi.compiled ∈ g.cg.piNets :=
    fun pi hmem => (mem_orderedPis hmem).1
  obtain ⟨r, hr, hans⟩ : ∃ r, s.solve solver g.cg (orderedPis g.parsed g.cg) f options = .ok r ∧
      TransitionAnswers s g.cg (orderedPis g.parsed g.cg) f options.blockedPatterns r := by
    cases hcone : options.coneRestrict with
    | true =>
      have hself := (support_spec h.toEquational hf).1 _ (isCone_outcone h.toEquational hf).self
      exact exists_solve h.toEquational hpi hpis hf hs solver options
        (hcone ▸ covers_cone h.toEquational hf _) hself hok
    | false =>
      have hne : g.cg.observable ≠ [] := hobs.resolve_left (by simp [hcone])
      exact exists_solve h.toEquational hpi hpis hf hs solver options
        (hcone ▸ covers_all h hne (fun _ => lt_of_mem_observable) f) hf hok
  refine ⟨r, hr, ⟨fun hunsat x1 x2 hc hkey => ?_, fun hnone => ?_⟩, fun hsat => ?_⟩
  · by_contra hdet
    obtain ⟨l, v, w, ht⟩ := transitionTest_replay h hgap hexcl hf hs hc hkey
      (Bool.not_eq_false _ ▸ hdet)
    exact hans.unsat hunsat l v w ht
  · refine hans.known.resolve_left fun hsat => ?_
    obtain ⟨l, v, w, ht, -⟩ := hans.sat hsat
    obtain ⟨x1, hx1⟩ := exists_drives g l
    obtain ⟨x2, hx2⟩ := exists_drives g v
    have hdet := ht.detects h hgap hexcl hf (fun _ hi => netVector_inputs hx1 hi)
      (fun _ hi => netVector_inputs hx2 hi)
    rw [hnone x1 x2 ((coupled_iff h hs ht.launch hx1 hx2).2 ht.coupled)
      (by rw [pairKey_eq hs hx1 hx2]; exact ht.unblocked)] at hdet
    exact Bool.false_ne_true hdet
  · obtain ⟨l, v, w, ht, hout⟩ := hans.sat hsat
    obtain ⟨x1, hx1⟩ := exists_drives g l
    obtain ⟨x2, hx2⟩ := exists_drives g v
    refine ⟨_, _, x1, x2, hout, fun pi hmem => ?_, (coupled_iff h hs ht.launch hx1 hx2).2 ht.coupled,
      ?_, ?_⟩
    · rw [getD_emitValues hnames l hmem, getD_emitValues hnames v hmem, hx1.eq_of_mem hmem,
        hx2.eq_of_mem hmem]
      exact ⟨rfl, rfl⟩
    · rw [pairKey_eq hs hx1 hx2]
      exact ht.unblocked
    · refine ht.detects h hgap hexcl hf (fun i hi => piVector_inputs (fun pi hmem => ?_) hi)
        (fun i hi => piVector_inputs (fun pi hmem => ?_) hi)
      · exact getD_emitValues hnames l hmem
      · exact getD_emitValues hnames v hmem

/-- **Launch on capture, from the view to the verdict**: the couples and the held inputs of
`build_scan_loc_view` never fail the solver, which gives both frames of a test that they couple,
or shows that there is none. -/
theorem scanLocView_answers (h : g.Complete) (hview : buildScanLocView g.parsed g.cg = .ok view)
    (solver : SatSolver ℕ) (hf : f.netIndex < g.cg.netCount) (options : SatSolveOptions)
    (hcone : options.coneRestrict = true)
    (hok : KeysOk (orderedPis g.parsed g.cg).length options.blockedPatterns) :
    ∃ r, solveScanTransitionFault solver g.cg (orderedPis g.parsed g.cg) view.couples view.heldPis f
        options = .ok r ∧
      TransitionAnswers (.loc view.couples view.heldPis) g.cg (orderedPis g.parsed g.cg) f
        options.blockedPatterns r := by
  have hself := (support_spec h.toEquational hf).1 _ (isCone_outcone h.toEquational hf).self
  exact exists_solve h.toEquational h.inputs (fun pi hmem => (mem_orderedPis hmem).1) hf
    (buildScanLocView_wellFormed hview) solver options (hcone ▸ covers_cone h.toEquational hf _)
    hself hok

/-- A scan view with one flip-flop, whose next state is `a AND q`. -/
def scanView : CachedGraph :=
  .load (.ofCells [("a", 2), ("__ppi_q", 3)] [("y", 5), ("__ppo_q", 4)]
      [("g", .ofPins "AND2" [("A", 2), ("B", 3), ("Y", 4)]),
       ("h", .ofPins "INV" [("A", 3), ("Y", 5)])])
    smallCells "fail" ∅ (by decide +kernel) (by decide +kernel)

/-- The state of the flip-flop, slow to fall. -/
def scanStateFault : CompactFault := { netIndex := 1, type := .SA1 }

theorem scanView_solve_iff_simulateTransitionFault :
    ∃ r, (Launch.loc [⟨1, 2⟩] [0]).solve .backtrack scanView.cg
        (orderedPis scanView.parsed scanView.cg) scanStateFault
        { blockedPatterns := [['0', '1']], coneRestrict := true } = .ok r ∧
      (r.result = .UNSAT ↔ ∀ x1 x2 : YosysNetID → Bool,
        (Launch.loc [⟨1, 2⟩] [0]).Coupled scanView.cg (orderedPis scanView.parsed scanView.cg) x1 x2 →
        (Launch.loc [⟨1, 2⟩] [0]).pairKey scanView.cg (orderedPis scanView.parsed scanView.cg) x1 x2 ∉
          [['0', '1']] →
        Golden.simulateTransitionFault scanView.cg
          (netVector (orderedPis scanView.parsed scanView.cg) x1)
          (netVector (orderedPis scanView.parsed scanView.cg) x2) scanStateFault = false) ∧
      (r.result = .SAT → ∃ m1 m2 x1 x2, r.out = some (m1, m2) ∧
        (∀ pi ∈ orderedPis scanView.parsed scanView.cg, m1.getD pi.name false = x1 pi.yosysId ∧
          m2.getD pi.name false = x2 pi.yosysId) ∧
        (Launch.loc [⟨1, 2⟩] [0]).Coupled scanView.cg (orderedPis scanView.parsed scanView.cg) x1 x2 ∧
        (Launch.loc [⟨1, 2⟩] [0]).pairKey scanView.cg (orderedPis scanView.parsed scanView.cg) x1 x2 ∉
          [['0', '1']] ∧
        Golden.simulateTransitionFault scanView.cg
          (mapVector (orderedPis scanView.parsed scanView.cg) m1)
          (mapVector (orderedPis scanView.parsed scanView.cg) m2) scanStateFault = true) :=
  solve_iff_simulateTransitionFault (Launch.loc [⟨1, 2⟩] [0]) .backtrack scanView (by decide +kernel)
    (scanView.levelized.acyclic_iff.2 (by decide +kernel)) (by decide +kernel) (by decide +kernel)
    (by decide +kernel) (by decide +kernel) (by decide +kernel)
    ⟨by decide +kernel, by decide +kernel⟩ scanStateFault (by decide +kernel) rfl
    { blockedPatterns := [['0', '1']], coneRestrict := true } (.inl rfl) (by decide +kernel)

/-- The same fault, with the couple that the view has. -/
theorem scanView_answers : ∃ view r, buildScanLocView scanView.parsed scanView.cg = .ok view ∧
    view.couples = [⟨1, 2⟩] ∧
    TransitionAnswers (.loc view.couples view.heldPis) scanView.cg
      (orderedPis scanView.parsed scanView.cg) scanStateFault [] r := by
  have hview := eq_ok_resultOf (buildScanLocView scanView.parsed scanView.cg) (by decide +kernel)
  obtain ⟨r, -, hr⟩ := scanLocView_answers ⟨⟨by decide +kernel,
    scanView.levelized.acyclic_iff.2 (by decide +kernel), by decide +kernel⟩, by decide +kernel,
    by decide +kernel⟩ hview .backtrack (f := scanStateFault) (by decide +kernel)
    { coneRestrict := true } rfl (by decide +kernel)
  exact ⟨_, r, hview, by decide +kernel, hr⟩

/-- The verdict of the broadside solver, and that of the golden reference on its
maps. -/
def replayTransition (g : CachedGraph) (f : CompactFault) (cone : Bool) :
    Option (SatSolveResult × Option Bool) :=
  ((solveTransitionFault .backtrack g.cg (orderedPis g.parsed g.cg) f
    { coneRestrict := cone }).toOption).map fun r => (r.result, r.out.map fun m =>
      Golden.simulateTransitionFault g.cg (mapVector (orderedPis g.parsed g.cg) m.1)
        (mapVector (orderedPis g.parsed g.cg) m.2) f)

/-- An inverter without outputs. -/
def blindInverter : CachedGraph :=
  .load (.ofCells [("a", 2)] [] [("g", .ofPins "INV" [("A", 2), ("Y", 3)])])
    smallCells "fail" ∅ (by decide +kernel) (by decide +kernel)

/-- What the solvers and the golden reference disagree on, on circuits where every
net is driven: a fault that is excluded from simulation, a net with two drivers, and
the whole circuit without an observation point, which is an error. -/
theorem solveTransitionFault_corners :
    ((∀ i < andFork.cg.netCount, andFork.cg.Driven i) ∧ andFork.cg.Combinational ∧
      andFork.ng.Acyclic ∧
      replayTransition andFork { netIndex := 0, exclusion := .BLACKBOX } true =
        some (.SAT, some false)) ∧
    ((∀ i < drivenConst.cg.netCount, drivenConst.cg.Driven i) ∧ drivenConst.cg.Combinational ∧
      drivenConst.ng.Acyclic ∧ replayTransition drivenConst { netIndex := 1 } true =
        some (.UNSAT, none) ∧
      Golden.simulateTransitionFault drivenConst.cg
        (netVector (orderedPis drivenConst.parsed drivenConst.cg) fun _ => false)
        (netVector (orderedPis drivenConst.parsed drivenConst.cg) fun _ => true)
        { netIndex := 1 } = true) ∧
    ((∀ i < blindInverter.cg.netCount, blindInverter.cg.Driven i) ∧
      blindInverter.cg.Combinational ∧ blindInverter.ng.Acyclic ∧
      replayTransition blindInverter { netIndex := 0 } false = none) :=
  ⟨⟨by decide +kernel, by decide +kernel, andFork.levelized.acyclic_iff.2 (by decide +kernel),
      by decide +kernel⟩,
    ⟨by decide +kernel, by decide +kernel, drivenConst.levelized.acyclic_iff.2 (by decide +kernel),
      by decide +kernel, by decide +kernel⟩,
    ⟨by decide +kernel, by decide +kernel,
      blindInverter.levelized.acyclic_iff.2 (by decide +kernel), by decide +kernel⟩⟩

end Atpg

end FaultFlow
