/-
# Tests replayed on the golden reference

`verify_fault_vector` of `src/core/atpg/progressive_atpg.cpp` replays a solved map
of inputs on `GoldenRefSim`.  When every net has one driver, the two passes of the
golden reference are the only pair of machines for the inputs of a vector, so the
tests of `Atpg.StuckAt` are the vectors that the golden reference detects
(`isTest_replay`, `IsTest.detects`).
-/

import FaultFlow.Atpg.StuckAt

namespace FaultFlow

open Lib
open Std (TreeMap)

namespace Golden

/-- The verdict of `verify_fault_vector` in `FUNCTIONAL` mode. -/
def detects (cg : CompiledSimGraph) (vec : TestVector) (fault : CompactFault) : Bool :=
  isDetected cg (simulateFaultFree cg vec) (simulateWithFault cg vec fault)

end Golden

/-- On a combinational circuit a vector without cycles is one pass. -/
theorem CachedGraph.detects_eq (g : CachedGraph) (hcomb : g.cg.Combinational) {vec : TestVector}
    (hvec : vec.cycles = []) {fault : CompactFault} (hexcl : fault.exclusion = .NONE) :
    Golden.detects g.cg vec fault = g.cg.observable.any fun o =>
      Golden.combPass g.cg vec none o != Golden.combPass g.cg vec (some fault) o := by
  have hsingle : ¬ (g.cg.ffConfigs ≠ [] ∨ vec.isSequential = true) := by
    simp [g.ffConfigs_eq_nil hcomb, TestVector.isSequential, hvec]
  rw [Golden.detects, Golden.simulateFaultFree, Golden.simulateWithFault]
  simp only [if_neg hsingle, if_neg (not_not.2 hexcl)]
  exact g.isDetected_snapshot _ _

namespace CachedGraph

/-- A combinational netlist in which every net has exactly one driver, and an
input is driven by its `INPUT` node. -/
structure Complete (g : CachedGraph) : Prop extends g.Equational where
  inputs : g.cg.InputsDriven
  driven : ∀ i < g.cg.netCount, g.cg.Driven i

variable {g : CachedGraph} (h : g.Complete)

include h

theorem Complete.gatesInOrder : g.cg.GatesInOrder :=
  g.gatesInOrder_of_combinational h.acyclic h.comb
    (g.forksPlaced_of_driven h.comb h.acyclic h.driven)

variable {i : CompiledNetIndex}

theorem Complete.mem_piNets (hi : i < g.cg.netCount) (hgate : ¬ g.cg.GateDriven i) :
    i ∈ g.cg.piNets :=
  g.mem_piNets_of_driven h.comb (h.driven i hi) hgate

/-- The fault-free pass gives an input the value of the vector. -/
theorem Complete.combPass_input (vec : TestVector) (hi : i ∈ g.cg.piNets) :
    Golden.combPass g.cg vec none i = vec.inputs.getD (g.cg.yosysOf i) false := by
  have hgate := h.single.not_gateDriven h.inputs hi
  rw [(Golden.combPass_solves g.passNodes_eq h.gatesInOrder h.single vec none).2 i hgate, if_pos hi,
    Golden.force_none]

/-- **The golden passes are the only pair of machines** for the inputs of a vector. -/
theorem Complete.eq_combPass {vec : TestVector} {f : CompactFault} (hexcl : f.exclusion = .NONE)
    (hf : f.netIndex < g.cg.netCount) {v w : Values}
    (hpair : Assign.TestPair g.cg.gateAssigns f.netIndex f.value v w)
    (hin : ∀ i ∈ g.cg.piNets, vec.inputs.getD (g.cg.yosysOf i) false = v i) (hi : i < g.cg.netCount) :
    Golden.combPass g.cg vec none i = v i ∧ Golden.combPass g.cg vec (some f) i = w i := by
  have hgolden := h.combPass_testPair h.gatesInOrder vec hexcl (h.driven f.netIndex hf)
  refine hgolden.eq_of_base hpair h.rankedBy (S := {i | i < g.cg.netCount}) ?_ ?_ hi
  · intro a ha _ j hj
    obtain ⟨n, hn, -, rfl⟩ := CompiledSimGraph.mem_gateAssigns.1 ha
    exact g.reads_lt_netCount hn hj
  · intro j hj hout
    have hmem := h.mem_piNets hj (mt CompiledSimGraph.mem_outs_gateAssigns.2 hout)
    rw [h.combPass_input vec hmem, hin j hmem]

end CachedGraph

namespace Atpg

/-! ## The inputs of the circuit -/

variable {pis : List AtpgPiInfo} {pi : AtpgPiInfo}

theorem mem_sortByName :
    pi ∈ sortByName pis ↔ pi ∈ pis :=
  (List.perm_insertionSort _ _).mem_iff

variable {g : CachedGraph}

/-- **`ordered_pis` lists inputs of the circuit**, under the numbers of their nets. -/
theorem mem_orderedPis (h : pi ∈ orderedPis g.parsed g.cg) :
    pi.compiled ∈ g.cg.piNets ∧ g.cg.yosysOf pi.compiled = pi.yosysId := by
  rw [orderedPis, List.mem_append, mem_sortByName, mem_sortByName] at h
  rcases h with h | h
  · obtain ⟨p, hp, hport⟩ := List.mem_flatMap.1 h
    unfold portPis at hport
    split at hport
    · rename_i hdir
      obtain ⟨b, hb, hmap⟩ := List.mem_filterMap.1 hport
      obtain ⟨i, hi, rfl⟩ := Option.map_eq_some_iff.1 hmap
      have hbit : b.1 ∈ p.2.bits :=
        List.mem_of_getElem? (List.mem_zipIdx_iff_getElem?.1 hb)
      refine ⟨g.mem_piNets_iff.2 (.inl ⟨b.1, ?_, hi⟩), g.yosysOf_eq hi⟩
      exact (NormalizedGraph.mem_PIs g.normalized).2 ⟨p, hp, hdir, hbit⟩
    · exact absurd hport List.not_mem_nil
  · obtain ⟨i, hi, rfl⟩ := List.mem_map.1 h
    exact ⟨g.mem_piNets_iff.2 (.inr hi), rfl⟩

variable {i : CompiledNetIndex} {value : AtpgPiInfo → Bool} {v : Values}

/-- **`ordered_pis` lists every input.** -/
theorem exists_mem_orderedPis (h : i ∈ g.cg.piNets) :
    ∃ pi ∈ orderedPis g.parsed g.cg, pi.compiled = i := by
  rcases g.mem_piNets_iff.1 h with ⟨y, hy, hi⟩ | hi
  · obtain ⟨p, hp, hdir, hbit⟩ := (NormalizedGraph.mem_PIs g.normalized).1 hy
    obtain ⟨k, hk⟩ := List.getElem?_of_mem hbit
    refine ⟨{ name := if p.2.bits.length = 1 then p.1 else p.1 ++ "[" ++ toString k ++ "]"
              yosysId := y, compiled := i }, ?_, rfl⟩
    rw [orderedPis, List.mem_append, mem_sortByName, mem_sortByName]
    refine .inl (List.mem_flatMap.2 ⟨p, hp, ?_⟩)
    rw [portPis, if_pos hdir, List.mem_filterMap]
    refine ⟨(y, k), List.mem_zipIdx_iff_getElem?.2 hk, ?_⟩
    simp only [hi, Option.map_some]
  · refine ⟨pseudoPi g.cg i, ?_, rfl⟩
    rw [orderedPis, List.mem_append, mem_sortByName, mem_sortByName]
    exact .inr (List.mem_map_of_mem hi)

/-- The masks of the whole circuit decide every fault when every net is driven. -/
theorem covers_all (h : g.Complete) {obs : List CompiledNetIndex} (hne : obs ≠ [])
    (hobs : ∀ o ∈ obs, o < g.cg.netCount) (f : CompactFault) :
    Covers g.cg.gateAssigns f.netIndex (OfPi (orderedPis g.parsed g.cg)) obs
      (buildConeMasks g.cg f.netIndex obs false) {i | i < g.cg.netCount} where
  upper := ⟨rfl, fun _ _ _ _ => rfl⟩
  back := by
    intro a ha _ i hi
    obtain ⟨n, hn, -, rfl⟩ := CompiledSimGraph.mem_gateAssigns.1 ha
    exact g.reads_lt_netCount hn hi
  support _ _ := rfl
  observed _ := ⟨fun ho => ⟨ho, rfl⟩, And.left⟩
  kept := hobs
  tied i hi _ hout _ := exists_mem_orderedPis
    (h.mem_piNets hi (mt CompiledSimGraph.mem_outs_gateAssigns.2 hout))
  decided := (List.isEmpty_eq_false_iff.2 hne).symm

/-! ## The vector of a map of inputs -/

/-- The vector that gives every input its value. -/
def piVector (pis : List AtpgPiInfo) (value : AtpgPiInfo → Bool) : TestVector :=
  { inputs := pis.foldl (fun inputs pi => inputs.insert pi.yosysId (value pi)) ∅ }

/-- The vector of an emitted map. -/
def mapVector (pis : List AtpgPiInfo) (m : TreeMap String Bool) : TestVector :=
  piVector pis fun pi => m.getD pi.name false

/-- Every input of the list stands for a net of the netlist. -/
def StemInputs (g : CachedGraph) (pis : List AtpgPiInfo) : Prop :=
  ∀ pi ∈ pis, g.IsStem pi.compiled ∧ g.cg.yosysOf pi.compiled = pi.yosysId

theorem stemInputs_orderedPis (g : CachedGraph) : StemInputs g (orderedPis g.parsed g.cg) :=
  fun _ hpi => ⟨g.isStem_of_piNets (mem_orderedPis hpi).1, (mem_orderedPis hpi).2⟩

/-- The vector holds the value of an input, when the values agree on inputs of one
net. -/
theorem getD_piVector (hstem : StemInputs g pis) (hvalue : ∀ pi ∈ pis, value pi = v pi.compiled)
    (hpi : pi ∈ pis) :
    (piVector pis value).inputs.getD (g.cg.yosysOf pi.compiled) false = v pi.compiled := by
  refine getD_foldl_insert AtpgPiInfo.yosysId value ⟨pi, hpi, (hstem pi hpi).2.symm⟩ ?_
  intro pi' hpi' hid
  rw [hvalue pi' hpi']
  obtain ⟨hmem, hyosys⟩ := hstem pi' hpi'
  rw [← hyosys] at hid
  have heq := (g.yosysToCompiled_yosysOf hmem).symm.trans
    ((congrArg (g.cg.yosysToCompiled[·]?) hid).trans (g.yosysToCompiled_yosysOf (hstem pi hpi).1))
  rw [Option.some.inj heq]

/-- The golden pass sets the inputs as the vector says. -/
theorem piVector_inputs (hvalue : ∀ pi ∈ orderedPis g.parsed g.cg, value pi = v pi.compiled)
    (hi : i ∈ g.cg.piNets) :
    (piVector (orderedPis g.parsed g.cg) value).inputs.getD (g.cg.yosysOf i) false = v i := by
  obtain ⟨pi, hpi, rfl⟩ := exists_mem_orderedPis hi
  exact getD_piVector (stemInputs_orderedPis g) hvalue hpi

/-- Values of the compiled inputs are values of their Yosys nets. -/
theorem exists_netValues (hstem : StemInputs g pis) (v : Values) :
    ∃ x : YosysNetID → Bool, ∀ pi ∈ pis, x pi.yosysId = v pi.compiled := by
  refine ⟨fun y => v ((g.cg.yosysToCompiled[y]?).getD 0), fun pi hpi => ?_⟩
  obtain ⟨hmem, hyosys⟩ := hstem pi hpi
  simp only [← hyosys, g.yosysToCompiled_yosysOf hmem, Option.getD_some]

/-- With distinct names the emitted map holds the value of every input. -/
theorem getD_emitValues (hnames : (pis.map AtpgPiInfo.name).Nodup) (v : Values) (hpi : pi ∈ pis) :
    (emitValues pis v).getD pi.name false = v pi.compiled := by
  refine getD_foldl_insert AtpgPiInfo.name (fun pi => v pi.compiled) ⟨pi, hpi, rfl⟩ ?_
  intro pi' hpi' hname
  rw [List.inj_on_of_nodup_map hnames hpi' hpi hname]

/-- The key of some of the emitted inputs. -/
theorem patternKey_emitValues_of_subset {pis inputs : List AtpgPiInfo} (hsub : pis ⊆ inputs)
    (hnames : (inputs.map AtpgPiInfo.name).Nodup) (v : Values) :
    patternKey (emitValues inputs v) pis = keyOf (pis.map fun pi => v pi.compiled) := by
  rw [patternKey, keyOf, List.map_map]
  refine List.map_congr_left fun pi hpi => ?_
  rw [getD_emitValues hnames v (hsub hpi)]
  rfl

theorem patternKey_emitValues (hnames : (pis.map AtpgPiInfo.name).Nodup) (v : Values) :
    patternKey (emitValues pis v) pis = keyOf (pis.map fun pi => v pi.compiled) :=
  patternKey_emitValues_of_subset (List.Subset.refl pis) hnames v

/-! ## Tests and vectors -/

section Replay

variable (h : g.Complete) {f : CompactFault} (hexcl : f.exclusion = .NONE)
  (hf : f.netIndex < g.cg.netCount) {blocked : List (List Char)} {vec : TestVector}

include h hexcl hf in
/-- A test is detected by every vector with its inputs. -/
theorem IsTest.detects {v w : Values} (ht : IsTest g.cg pis f blocked g.cg.observable v w)
    (hvec : vec.cycles = []) (hin : ∀ i ∈ g.cg.piNets, vec.inputs.getD (g.cg.yosysOf i) false = v i) :
    Golden.detects g.cg vec f = true := by
  rw [g.detects_eq h.comb hvec hexcl, List.any_eq_true]
  obtain ⟨o, ho, hne⟩ := ht.differs
  obtain ⟨hgood, hfaulty⟩ := h.eq_combPass hexcl hf ht.pair hin (lt_of_mem_observable ho)
  exact ⟨o, ho, by simpa [hgood, hfaulty] using hne⟩

include h hexcl hf in
/-- A vector that is detected is a test. -/
theorem isTest_replay (hvec : vec.cycles = []) (hdet : Golden.detects g.cg vec f = true)
    (hkey : keyOf (pis.map fun pi => Golden.combPass g.cg vec none pi.compiled) ∉ blocked) :
    IsTest g.cg pis f blocked g.cg.observable (Golden.combPass g.cg vec none)
      (Golden.combPass g.cg vec (some f)) := by
  rw [g.detects_eq h.comb hvec hexcl, List.any_eq_true] at hdet
  obtain ⟨o, ho, hne⟩ := hdet
  exact ⟨h.combPass_testPair h.gatesInOrder vec hexcl (h.driven f.netIndex hf), hkey, o, ho,
    by simpa using hne⟩

end Replay

/-- **The cone-restricted solver agrees with the golden reference.**  `UNSAT` means
that no unblocked assignment of the inputs is detected, and the map that comes with
`SAT` is unblocked and detected. -/
theorem solveStuckAtFault_iff_detects (solver : SatSolver ℕ) (g : CachedGraph)
    (hcomb : g.cg.Combinational) (hac : g.ng.Acyclic)
    (hdriven : ∀ i < g.cg.netCount, g.cg.Driven i) (hone : g.cg.SingleDriver)
    (hpi : g.cg.InputsDriven)
    (hnames : ((orderedPis g.parsed g.cg).map AtpgPiInfo.name).Nodup) (f : CompactFault)
    (hf : f.netIndex < g.cg.netCount) (hexcl : f.exclusion = .NONE) (options : SatSolveOptions)
    (hcone : options.coneRestrict = true)
    (hok : KeysOk (orderedPis g.parsed g.cg).length options.blockedPatterns) :
    ∃ r, solveStuckAtFault solver g.cg (orderedPis g.parsed g.cg) f options = .ok r ∧
      (r.result = .UNSAT ↔ ∀ x : YosysNetID → Bool,
        keyOf ((orderedPis g.parsed g.cg).map fun pi => x pi.yosysId) ∉ options.blockedPatterns →
        Golden.detects g.cg (piVector (orderedPis g.parsed g.cg) fun pi => x pi.yosysId) f =
          false) ∧
      (r.result = .SAT → ∃ m, r.out = some m ∧
        patternKey m (orderedPis g.parsed g.cg) ∉ options.blockedPatterns ∧
        Golden.detects g.cg (mapVector (orderedPis g.parsed g.cg) m) f = true) := by
  have h : g.Complete := ⟨⟨hcomb, hac, hone⟩, hpi, hdriven⟩
  have hmem : ∀ pi ∈ orderedPis g.parsed g.cg, pi.compiled ∈ g.cg.piNets :=
    fun pi hpi => (mem_orderedPis hpi).1
  obtain ⟨r, hr, hans⟩ := exists_solveStuckAtFault_cone h.toEquational hpi hmem hf solver options hcone hok
  refine ⟨r, hr, ⟨fun hunsat x hkey => ?_, fun hnone => ?_⟩, fun hsat => ?_⟩
  · by_contra hdet
    refine hans.unsat hunsat _ _ (isTest_replay h hexcl hf rfl (Bool.not_eq_false _ ▸ hdet) ?_)
    rwa [List.map_congr_left fun pi hpi => ?_]
    rw [h.combPass_input _ (hmem pi hpi), piVector_inputs (v := fun i => x (g.cg.yosysOf i))
      (fun pi hpi => by rw [← (mem_orderedPis hpi).2]) (hmem pi hpi), (mem_orderedPis hpi).2]
  · refine hans.known.resolve_left fun hsat => ?_
    obtain ⟨v, w, ht, -⟩ := hans.sat hsat
    obtain ⟨x, hx⟩ := exists_netValues (stemInputs_orderedPis g) v
    refine absurd (ht.detects h hexcl hf rfl fun i hi => piVector_inputs hx hi) ?_
    rw [hnone x (by rw [List.map_congr_left hx]; exact ht.unblocked)]
    exact Bool.false_ne_true
  · obtain ⟨v, w, ht, hout⟩ := hans.sat hsat
    refine ⟨_, hout, ?_, ?_⟩
    · rw [patternKey_emitValues hnames]
      exact ht.unblocked
    · refine ht.detects h hexcl hf rfl fun i hi => piVector_inputs (fun pi hpi => ?_) hi
      exact getD_emitValues hnames v hpi

theorem andFork_solveStuckAtFault_iff_detects :
    ∃ r, solveStuckAtFault .backtrack andFork.cg (orderedPis andFork.parsed andFork.cg)
        sharedInputFault { blockedPatterns := [['0', '1']], coneRestrict := true } = .ok r ∧
      (r.result = .UNSAT ↔ ∀ x : YosysNetID → Bool,
        keyOf ((orderedPis andFork.parsed andFork.cg).map fun pi => x pi.yosysId) ∉
          [['0', '1']] →
        Golden.detects andFork.cg
          (piVector (orderedPis andFork.parsed andFork.cg) fun pi => x pi.yosysId)
          sharedInputFault = false) ∧
      (r.result = .SAT → ∃ m, r.out = some m ∧
        patternKey m (orderedPis andFork.parsed andFork.cg) ∉ [['0', '1']] ∧
        Golden.detects andFork.cg (mapVector (orderedPis andFork.parsed andFork.cg) m)
          sharedInputFault = true) :=
  solveStuckAtFault_iff_detects .backtrack andFork (by decide +kernel)
    (andFork.levelized.acyclic_iff.2 (by decide +kernel)) (by decide +kernel) (by decide +kernel)
    (by decide +kernel) (by decide +kernel) sharedInputFault (by decide +kernel) rfl
    { blockedPatterns := [['0', '1']], coneRestrict := true } rfl (by decide +kernel)

/-- An inverter that drives the net of constant zero. -/
def drivenConst : CachedGraph :=
  .load (.ofCells [("a", 2)] [("y", 4)]
      [("g", .ofPins "INV" [("A", 2), ("Y", -1)]),
       ("h", .ofPins "BUF" [("A", -1), ("Y", 4)])])
    smallCells "fail" ∅ (by decide +kernel) (by decide +kernel)

/-- A blackboxed instance on the output net of a buffer. -/
def drivenPseudoPi : CachedGraph :=
  .load (.ofCells [("a", 2)] [("y", 4)]
      [("b", .ofPins "BUF" [("A", 2), ("Y", 4)]),
       ("g", .ofPins "BUF" [("A", 2), ("Y", 4)])])
    smallCells "fail" (Std.TreeSet.ofList ["b"]) (by decide +kernel) (by decide +kernel)

/-- A bus `a` and a port that is called `a[0]`. -/
def sharedNames : CachedGraph :=
  .load
    { ports := TreeMap.ofList [("a", ParsedPort.mk "input" [2, 3]), ("a[0]", .mk "input" [4]),
        ("y", .mk "output" [6])]
      cells := TreeMap.ofList [("g", ParsedCell.ofPins "INV" [("A", 4), ("Y", 5)]),
        ("h", .ofPins "AND2" [("A", 2), ("B", 5), ("Y", 6)])]
      netnames := ∅ }
    smallCells "fail" ∅ (by decide +kernel) (by decide +kernel)

/-- The verdict of the cone-restricted solver, and that of the golden reference on
its map. -/
def replay (g : CachedGraph) (f : CompactFault) : Option (SatSolveResult × Option Bool) :=
  ((solveStuckAtFault .backtrack g.cg (orderedPis g.parsed g.cg) f
    { coneRestrict := true }).toOption).map fun r =>
      (r.result, r.out.map fun m => Golden.detects g.cg (mapVector (orderedPis g.parsed g.cg) m) f)

/-- What the solver and the golden reference disagree on, on circuits where every
net is driven: a fault that is excluded from simulation, a net with two drivers, a
pseudo-input with a driver of its own, and two inputs of one name. -/
theorem solveStuckAtFault_corners :
    ((∀ i < andFork.cg.netCount, andFork.cg.Driven i) ∧ andFork.cg.Combinational ∧
      andFork.ng.Acyclic ∧
      replay andFork { netIndex := 0, exclusion := .BLACKBOX } = some (.SAT, some false)) ∧
    ((∀ i < drivenConst.cg.netCount, drivenConst.cg.Driven i) ∧ drivenConst.cg.Combinational ∧
      drivenConst.ng.Acyclic ∧ replay drivenConst { netIndex := 1 } = some (.UNSAT, none) ∧
      Golden.detects drivenConst.cg
        (piVector (orderedPis drivenConst.parsed drivenConst.cg) fun _ => true)
        { netIndex := 1 } = true) ∧
    ((∀ i < drivenPseudoPi.cg.netCount, drivenPseudoPi.cg.Driven i) ∧
      drivenPseudoPi.cg.Combinational ∧ drivenPseudoPi.ng.Acyclic ∧
      replay drivenPseudoPi { netIndex := 0 } = some (.UNSAT, none) ∧
      Golden.detects drivenPseudoPi.cg
        (piVector (orderedPis drivenPseudoPi.parsed drivenPseudoPi.cg) fun _ => true)
        { netIndex := 0 } = true) ∧
    ((∀ i < sharedNames.cg.netCount, sharedNames.cg.Driven i) ∧ sharedNames.cg.Combinational ∧
      sharedNames.ng.Acyclic ∧ replay sharedNames { netIndex := 0 } = some (.SAT, some false)) :=
  ⟨⟨by decide +kernel, by decide +kernel, andFork.levelized.acyclic_iff.2 (by decide +kernel),
      by decide +kernel⟩,
    ⟨by decide +kernel, by decide +kernel, drivenConst.levelized.acyclic_iff.2 (by decide +kernel),
      by decide +kernel, by decide +kernel⟩,
    ⟨by decide +kernel, by decide +kernel,
      drivenPseudoPi.levelized.acyclic_iff.2 (by decide +kernel), by decide +kernel,
      by decide +kernel⟩,
    ⟨by decide +kernel, by decide +kernel, sharedNames.levelized.acyclic_iff.2 (by decide +kernel),
      by decide +kernel⟩⟩

end Atpg

end FaultFlow
