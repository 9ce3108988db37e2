/-
# The circuit as a system of equations

The gates of a compiled graph are equations between nets (`gateAssigns`), with
one equation per net and rising ranks when the netlist is acyclic and has one
driver per net (`CachedGraph.Equational`).  The golden reference solves them: its
fault-free and its faulty pass are a `TestPair` (`combPass_testPair`).
-/

import FaultFlow.IR.Drivers
import FaultFlow.Lib.Miter
import FaultFlow.Sim.CombAgreement

namespace FaultFlow

open Lib GraphCompiler

namespace CompiledSimGraph

/-- The equation of a gate, from its packed inputs. -/
def gateAssign (n : SimNode) : Assign CompiledNetIndex Bool where
  out := n.out
  reads := n.inputNets
  fn v := evalGateScalar n.type (n.inputNets.map v)
  congr _ _ h := by rw [List.map_congr_left h]

/-- The equations of a circuit. -/
def gateAssigns (cg : CompiledSimGraph) : List (Assign CompiledNetIndex Bool) :=
  (cg.nodes.filter fun n => ¬ n.IsSource).map gateAssign

variable {cg : CompiledSimGraph}

/-- The equations are those of the gates. -/
theorem mem_gateAssigns {a : Assign CompiledNetIndex Bool} :
    a ∈ cg.gateAssigns ↔ ∃ n ∈ cg.nodes, ¬ n.IsSource ∧ gateAssign n = a := by
  simp [gateAssigns, and_assoc]

/-- The nets with an equation are those a gate drives. -/
theorem mem_outs_gateAssigns {i : CompiledNetIndex} :
    i ∈ Assign.outs cg.gateAssigns ↔ cg.GateDriven i := by
  simp only [Assign.mem_outs, mem_gateAssigns, GateDriven]
  constructor
  · rintro ⟨_, ⟨n, hn, hsrc, rfl⟩, rfl⟩
    exact ⟨n, hn, hsrc, rfl⟩
  · rintro ⟨n, hn, hsrc, rfl⟩
    exact ⟨_, ⟨n, hn, hsrc, rfl⟩, rfl⟩

/-- With single drivers no net has two equations. -/
theorem nodup_outs_gateAssigns (h : cg.SingleDriver) : (Assign.outs cg.gateAssigns).Nodup := by
  rw [Assign.outs, gateAssigns, List.map_map]
  exact h.sublist (List.filter_sublist.map SimNode.out)

/-- A rank of the circuit ranks its equations. -/
theorem Ranked.rankedBy {rank : CompiledNetIndex → ℕ} (h : cg.Ranked rank) :
    Assign.RankedBy rank cg.gateAssigns := by
  intro a ha i hi hout
  obtain ⟨n, hn, hsrc, rfl⟩ := mem_gateAssigns.1 ha
  exact h n hn hsrc i hi (mem_outs_gateAssigns.1 hout)

/-- No gate drives an input. -/
theorem SingleDriver.not_gateDriven (hone : cg.SingleDriver) (hpi : cg.InputsDriven)
    {i : CompiledNetIndex} (hi : i ∈ cg.piNets) : ¬ cg.GateDriven i := by
  rintro ⟨w, hw, hgate, hout⟩
  obtain ⟨n, hn, htype, hn'⟩ := hpi i hi
  obtain rfl := hone.eq hw hn (hout.trans hn'.symm)
  exact hgate (.inl htype)

/-- Values that satisfy the equations of every gate. -/
theorem solves_gateAssigns_iff {v : Values} : Assign.Solves cg.gateAssigns v ↔
    ∀ n ∈ cg.nodes, ¬ n.IsSource → v n.out = evalGateScalar n.type (n.inputNets.map v) := by
  constructor
  · exact fun h n hn hsrc => h _ (mem_gateAssigns.2 ⟨n, hn, hsrc, rfl⟩)
  · intro h a ha
    obtain ⟨n, hn, hsrc, rfl⟩ := mem_gateAssigns.1 ha
    exact h n hn hsrc

end CompiledSimGraph

namespace CachedGraph

/-- What makes a graph a solvable system of equations: no flip-flop, no cycle, and
one driver per net. -/
structure Equational (g : CachedGraph) : Prop where
  comb : g.cg.Combinational
  acyclic : g.ng.Acyclic
  single : g.cg.SingleDriver

variable {g : CachedGraph} (h : g.Equational)

include h

theorem Equational.rankedBy : Assign.RankedBy g.rank g.cg.gateAssigns :=
  (g.ranked h.comb h.acyclic h.single).rankedBy

theorem Equational.nodup : (Assign.outs g.cg.gateAssigns).Nodup :=
  CompiledSimGraph.nodup_outs_gateAssigns h.single

/-- A node that is no gate reads nothing, so the readers of a net are gates. -/
theorem Equational.fans_iff {i t : CompiledNetIndex} :
    Assign.Fans g.cg.gateAssigns i t ↔ ∃ n ∈ g.cg.nodes, i ∈ n.inputNets ∧ n.out = t := by
  constructor
  · rintro ⟨a, ha, hi, rfl⟩
    obtain ⟨n, hn, -, rfl⟩ := CompiledSimGraph.mem_gateAssigns.1 ha
    exact ⟨n, hn, hi, rfl⟩
  · rintro ⟨n, hn, hi, rfl⟩
    have hsrc : ¬ n.IsSource := by
      intro hsrc
      rw [g.inputNets_eq_nil h.comb hn hsrc] at hi
      exact List.not_mem_nil hi
    exact ⟨_, CompiledSimGraph.mem_gateAssigns.2 ⟨n, hn, hsrc, rfl⟩, hi, rfl⟩

end CachedGraph

/-! ## The golden reference -/

namespace Golden

/-- The equation of a gate, with a fault forced on what it writes. -/
def forcedAssign (fault : Option CompactFault) (n : SimNode) : Assign CompiledNetIndex Bool where
  out := n.out
  reads := n.inputNets
  fn v := force fault n.out (plainValue v n)
  congr _ _ h := by rw [plainValue_congr h]

/-- **A pass of the simulator runs the equations in order**, with the fault forced. -/
theorem combPass_eq_run (cg : CompiledSimGraph) (vec : TestVector) (fault : Option CompactFault) :
    combPass cg vec fault = Assign.run
      ((cg.passNodes.filter fun n => ¬ n.IsSource).map (forcedAssign fault))
      (driveNets cg vec.inputs fault cg.piNets fun _ => false) := by
  rw [combPass]
  generalize driveNets cg vec.inputs fault cg.piNets (fun _ => false) = x
  induction cg.passNodes generalizing x with
  | nil => rfl
  | cons n nodes ih =>
    rw [List.foldl_cons, ih]
    by_cases hsrc : n.IsSource
    · simp [evalNode, hsrc]
    · have hstep : evalNode plainValue fault x n = Assign.step x (forcedAssign fault n) := by
        rw [evalNode, if_neg hsrc, write_eq]
        rfl
      rw [hstep]
      simp [hsrc]

/-- **The golden pass solves the forced equations**, and leaves the other nets as
the inputs set them. -/
theorem combPass_solves {cg : CompiledSimGraph} (hpass : cg.passNodes = cg.nodes)
    (hord : cg.GatesInOrder) (hone : cg.SingleDriver) (vec : TestVector)
    (fault : Option CompactFault) :
    (∀ n ∈ cg.nodes, ¬ n.IsSource → combPass cg vec fault n.out =
      force fault n.out (plainValue (combPass cg vec fault) n)) ∧
    ∀ i, ¬ cg.GateDriven i → combPass cg vec fault i =
      if i ∈ cg.piNets then force fault i (vec.inputs.getD (cg.yosysOf i) false) else false := by
  have houts : ∀ i, i ∈ Assign.outs ((cg.nodes.filter fun n => ¬ n.IsSource).map
      (forcedAssign fault)) ↔ cg.GateDriven i := by
    intro i
    simp only [Assign.outs, List.map_map, List.mem_map, List.mem_filter, decide_eq_true_eq,
      and_assoc]
    rfl
  rw [combPass_eq_run, hpass]
  constructor
  · intro n hn hsrc
    refine Assign.run_eq_fn (a := forcedAssign fault n) ?_ ?_ _ ?_
    · simp only [houts]
      exact fresh_map_of_gatesInOrder hord (fun _ => rfl) (fun _ => rfl)
    · rw [Assign.outs, List.map_map]
      exact hone.sublist (List.filter_sublist.map SimNode.out)
    · exact List.mem_map.2 ⟨n, List.mem_filter.2 ⟨hn, by simpa using hsrc⟩, rfl⟩
  · intro i hi
    rw [Assign.run_of_not_mem (mt (houts i).1 hi), driveNets_apply]

end Golden

namespace CachedGraph

/-- **The golden passes are a pair of machines**, for a fault on a driven net. -/
theorem Equational.combPass_testPair {g : CachedGraph} (h : g.Equational)
    (hord : g.cg.GatesInOrder) (vec : TestVector) {f : CompactFault} (hexcl : f.exclusion = .NONE)
    (hdriven : g.cg.Driven f.netIndex) :
    Assign.TestPair g.cg.gateAssigns f.netIndex f.value (Golden.combPass g.cg vec none)
      (Golden.combPass g.cg vec (some f)) := by
  obtain ⟨hgood, hgbase⟩ := Golden.combPass_solves g.passNodes_eq hord h.single vec none
  obtain ⟨hfaulty, hfbase⟩ := Golden.combPass_solves g.passNodes_eq hord h.single vec (some f)
  refine ⟨?_, ?_, ?_, fun i hi hne => ?_⟩
  · rw [CompiledSimGraph.solves_gateAssigns_iff]
    intro n hn hsrc
    rw [hgood n hn hsrc, Golden.force_none, Golden.plainValue_eq]
    rfl
  · intro a ha
    obtain ⟨ha, hne⟩ := Assign.mem_dropOut.1 ha
    obtain ⟨n, hn, hsrc, rfl⟩ := CompiledSimGraph.mem_gateAssigns.1 ha
    have hne' : f.netIndex ≠ n.out := Ne.symm hne
    show Golden.combPass g.cg vec (some f) n.out = _
    rw [hfaulty n hn hsrc, Golden.force_of_ne hne', Golden.plainValue_eq]
    rfl
  · obtain ⟨n, hn, hout⟩ := hdriven
    by_cases hsrc : n.IsSource
    · have hinput : n.type = .INPUT := hsrc.resolve_right (h.comb n hn)
      have hpi := g.mem_piNets_of_input hn hinput
      have hgate : ¬ g.cg.GateDriven f.netIndex := by
        rintro ⟨w, hw, hwsrc, hwout⟩
        obtain rfl := h.single.eq hw hn (hwout.trans hout.symm)
        exact hwsrc hsrc
      rw [hfbase _ hgate, if_pos (hout ▸ hpi), Golden.force_self hexcl]
    · rw [← hout, hfaulty n hn hsrc, hout, Golden.force_self hexcl]
  · have hgate : ¬ g.cg.GateDriven i := mt CompiledSimGraph.mem_outs_gateAssigns.2 hi
    rw [hfbase i hgate, hgbase i hgate, Golden.force_of_ne (Ne.symm hne), Golden.force_none]

end CachedGraph

end FaultFlow
