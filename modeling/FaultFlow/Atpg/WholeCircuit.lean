/-
# The whole circuit and the cone

With `cone_restrict` off, `solve_stuck_at_fault` encodes both machines everywhere.
The faulty copy of a net that nothing drives is then free, where the cone reads the
good copy.  The two encodings agree as long as no such net feeds an observation
point (`solveStuckAtFault_cone_eq_whole`).
-/

import FaultFlow.Atpg.Replay

namespace FaultFlow

open Lib
open Std (TreeMap)

/-- Net `i` is an input of the node that drives net `t`. -/
def CompiledSimGraph.Feeds (cg : CompiledSimGraph) (i t : CompiledNetIndex) : Prop :=
  ∃ n ∈ cg.nodes, i ∈ n.inputNets ∧ n.out = t

/-- Net `i` feeds an observation point, or is one. -/
def CompiledSimGraph.Observed (cg : CompiledSimGraph) (i : CompiledNetIndex) : Prop :=
  ∃ o ∈ cg.observable, Relation.ReflTransGen cg.Feeds i o

/-- What is observed lies in every set of nets that holds the observation points
and is closed under fan-in. -/
theorem CompiledSimGraph.Observed.mem {cg : CompiledSimGraph} {S : List CompiledNetIndex}
    (hobs : ∀ o ∈ cg.observable, o ∈ S)
    (hclosed : ∀ n ∈ cg.nodes, n.out ∈ S → ∀ i ∈ n.inputNets, i ∈ S) {i : CompiledNetIndex}
    (h : cg.Observed i) : i ∈ S := by
  obtain ⟨o, ho, hpath⟩ := h
  induction hpath using Relation.ReflTransGen.head_induction_on with
  | refl => exact hobs o ho
  | head hstep _ ih =>
    obtain ⟨n, hn, hread, rfl⟩ := hstep
    exact hclosed n hn ih _ hread

namespace Atpg

variable {g : CachedGraph}

/-- The observed nets are closed under fan-in. -/
theorem backClosed_observed : Assign.BackClosed g.cg.gateAssigns {i | g.cg.Observed i} := by
  rintro a ha ⟨o, ho, hpath⟩ i hi
  obtain ⟨n, hn, -, rfl⟩ := CompiledSimGraph.mem_gateAssigns.1 ha
  exact ⟨o, ho, .head ⟨n, hn, hi, rfl⟩ hpath⟩

/-- **The masks of the whole circuit** decide a fault when the nets that are
observed have drivers. -/
theorem covers_whole (hcomb : g.cg.Combinational) {f : CompactFault} (hobs : g.cg.observable ≠ [])
    (hundriven : ∀ i, g.cg.Observed i → ¬ g.cg.Driven i → i = f.netIndex) :
    Covers g.cg.gateAssigns f.netIndex (OfPi (orderedPis g.parsed g.cg)) g.cg.observable
      (buildConeMasks g.cg f.netIndex g.cg.observable false) {i | g.cg.Observed i} where
  upper := ⟨rfl, fun _ _ _ _ => rfl⟩
  back := backClosed_observed
  support _ _ := rfl
  observed _ := ⟨fun ho => ⟨ho, rfl⟩, And.left⟩
  kept o ho := ⟨o, ho, .refl⟩
  tied i hi _ hout hne := by
    have hdriven : g.cg.Driven i := by
      by_contra hnot
      exact hne (hundriven i hi hnot)
    exact exists_mem_orderedPis (g.mem_piNets_of_driven hcomb hdriven
      (mt CompiledSimGraph.mem_outs_gateAssigns.2 hout))
  decided := (List.isEmpty_eq_false_iff.2 hobs).symm

/-- **The two encodings agree** where every net has at most one driver, and one
without a driver is not observed. -/
theorem solveStuckAtFault_cone_eq_whole (solver : SatSolver ℕ) (g : CachedGraph)
    (hcomb : g.cg.Combinational) (hac : g.ng.Acyclic) (hone : g.cg.SingleDriver)
    (hpi : g.cg.InputsDriven) (hobs : g.cg.observable ≠ []) (f : CompactFault)
    (hf : f.netIndex < g.cg.netCount)
    (hundriven : ∀ i, g.cg.Observed i → ¬ g.cg.Driven i → i = f.netIndex)
    (options : SatSolveOptions)
    (hok : KeysOk (orderedPis g.parsed g.cg).length options.blockedPatterns) :
    ∃ r r', solveStuckAtFault solver g.cg (orderedPis g.parsed g.cg) f
        { options with coneRestrict := true } = .ok r ∧
      solveStuckAtFault solver g.cg (orderedPis g.parsed g.cg) f
        { options with coneRestrict := false } = .ok r' ∧ r.result = r'.result := by
  have h : g.Equational := ⟨hcomb, hac, hone⟩
  have hpis : ∀ pi ∈ orderedPis g.parsed g.cg, pi.compiled ∈ g.cg.piNets :=
    fun pi hmem => (mem_orderedPis hmem).1
  obtain ⟨r, hr, hans⟩ := exists_solveStuckAtFault h hpi hpis hf solver
    { options with coneRestrict := true } (covers_cone h hf _) hok
  obtain ⟨r', hr', hans'⟩ := exists_solveStuckAtFault h hpi hpis hf solver
    { options with coneRestrict := false } (covers_whole hcomb hobs hundriven) hok
  exact ⟨r, r', hr, hr', hans.result_eq hans'⟩

/-- A netlist whose only undriven net drives nothing that is observed. -/
def danglingNet : CachedGraph :=
  .load (.ofCells [("a", 2)] [("y", 4)]
      [("g", .ofPins "INV" [("A", 2), ("Y", 4)]),
       ("h", .ofPins "BUF" [("A", 3), ("Y", 5)])])
    smallCells "fail" ∅ (by decide +kernel) (by decide +kernel)

theorem danglingNet_cone_eq_whole : ¬ danglingNet.cg.Driven 1 ∧
    ∃ r r', solveStuckAtFault .backtrack danglingNet.cg
        (orderedPis danglingNet.parsed danglingNet.cg) { netIndex := 0 }
        { coneRestrict := true } = .ok r ∧
      solveStuckAtFault .backtrack danglingNet.cg
        (orderedPis danglingNet.parsed danglingNet.cg) { netIndex := 0 }
        { coneRestrict := false } = .ok r' ∧ r.result = r'.result := by
  refine ⟨by decide +kernel, solveStuckAtFault_cone_eq_whole .backtrack danglingNet
    (by decide +kernel) (danglingNet.levelized.acyclic_iff.2 (by decide +kernel))
    (by decide +kernel) (by decide +kernel) (by decide +kernel) { netIndex := 0 }
    (by decide +kernel) (fun i hi hdriven => ?_) {} (by decide +kernel)⟩
  have hmem : i ∈ [0, 2] := hi.mem (by decide +kernel) (by decide +kernel)
  have hall : ∀ i ∈ [0, 2], danglingNet.cg.Driven i := by decide +kernel
  exact absurd (hall i hmem) hdriven

/-- An output that a net without a driver feeds. -/
def floatingOutput : CachedGraph :=
  .load (.ofCells [("a", 2)] [("y", 4)] [("g", .ofPins "BUF" [("A", 3), ("Y", 4)])])
    smallCells "fail" ∅ (by decide +kernel) (by decide +kernel)

/-- The faulty copy of the floating net is free in the whole circuit, so an input
fault that reaches nothing passes for testable there. -/
theorem floatingOutput_cone_ne_whole : floatingOutput.cg.Combinational ∧ floatingOutput.ng.Acyclic ∧
    ((solveStuckAtFault .backtrack floatingOutput.cg
      (orderedPis floatingOutput.parsed floatingOutput.cg) { netIndex := 0 }
      { coneRestrict := true }).toOption.map SolveOutcome.result) = some .UNSAT ∧
    ((solveStuckAtFault .backtrack floatingOutput.cg
      (orderedPis floatingOutput.parsed floatingOutput.cg) { netIndex := 0 }
      { coneRestrict := false }).toOption.map SolveOutcome.result) = some .SAT :=
  ⟨by decide +kernel, floatingOutput.levelized.acyclic_iff.2 (by decide +kernel),
    by decide +kernel, by decide +kernel⟩

end Atpg

end FaultFlow
