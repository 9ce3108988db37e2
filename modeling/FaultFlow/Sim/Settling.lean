/-
# One pass settles the circuit

In an order in which gates read what is already written (`GatesInOrder`) the
result of an evaluation pass depends on the inputs, the flip-flop outputs and
the undriven nets only (`evaluateCombinational_congr`), and a second pass
changes nothing.  The order that `compile` produces is of this kind unless a
branch buffer is misplaced: `nodes_topological_iff` says exactly when.

`bufferedClock` is a netlist on which it fails: a buffered clock with two
flip-flops.  The branches of the clock are on level `0`, before the buffer that
drives it.
-/

import FaultFlow.IR.ReadOrder
import FaultFlow.Sim.Passes

namespace FaultFlow

open Lib GraphCompiler

namespace Golden

variable {nodes : List SimNode} {mk : SimNode → Assign CompiledNetIndex Bool}
  {pre post : List (Assign CompiledNetIndex Bool)} {a : Assign CompiledNetIndex Bool}
  {action : CompiledNetIndex → WbrAction} {fault : Option CompactFault}

/-- An assignment of a pass over the gates is a node's, and what gates before the
node write is written before. -/
theorem exists_of_map_eq (hmk : ∀ n, (mk n).out = n.out)
    (h : (nodes.filter fun sn => ¬ sn.IsSource).map mk = pre ++ a :: post) :
    ∃ (k : ℕ) (n : SimNode), nodes[k]? = some n ∧ ¬ n.IsSource ∧ a = mk n ∧
      ∀ w ∈ nodes.take k, ¬ w.IsSource → w.out ∈ Assign.outs pre := by
  obtain ⟨l₁, l₂, hfilter, rfl, hl₂⟩ := List.map_eq_append_iff.1 h
  obtain ⟨n, l₃, rfl, rfl, rfl⟩ := List.map_eq_cons_iff.1 hl₂
  obtain ⟨m₁, m₂, rfl, rfl, hm₂⟩ := List.filter_eq_append_iff.1 hfilter
  obtain ⟨c₁, c₂, rfl, hc₁, hn, rfl⟩ := List.filter_eq_cons_iff.1 hm₂
  refine ⟨(m₁ ++ c₁).length, n, ?_, by simpa using hn, rfl, fun w hw hsrc => ?_⟩
  · rw [← List.append_assoc, List.getElem?_append_right le_rfl]
    simp
  · rw [← List.append_assoc, List.take_left] at hw
    rcases List.mem_append.1 hw with hw | hw
    · simp only [Assign.outs, List.map_map]
      exact List.mem_map.2 ⟨w, List.mem_filter.2 ⟨hw, by simpa using hsrc⟩, hmk w⟩
    · exact absurd (by simpa using hsrc) (hc₁ w hw)

/-- What stands before an assignment of a pass are the gates before its node. -/
theorem exists_of_nodeAssigns_eq (h : nodeAssigns action fault nodes = pre ++ a :: post) :
    ∃ (k : ℕ) (n : SimNode), nodes[k]? = some n ∧ ¬ n.IsSource ∧ a = nodeAssign action fault n ∧
      ∀ w ∈ nodes.take k, ¬ w.IsSource → w.out ∈ Assign.outs pre :=
  exists_of_map_eq (fun _ => rfl) h

/-- A pass writes the outputs of its gates. -/
theorem mem_outs_nodeAssigns {i : CompiledNetIndex} :
    i ∈ Assign.outs (nodeAssigns action fault nodes) ↔ ∃ w ∈ nodes, ¬ w.IsSource ∧ w.out = i := by
  simp only [Assign.outs, nodeAssigns, List.map_map, List.mem_map, List.mem_filter,
    decide_eq_true_eq, and_assoc]
  rfl

theorem nodeReads_pass (sn : SimNode) : nodeReads (fun _ => .PASS) sn = sn.inputNets := by
  simp [nodeReads]

variable {cg : CompiledSimGraph}

/-- A pass in order reads no stale gate output. -/
theorem fresh_map_of_gatesInOrder (h : cg.GatesInOrder) (hmk : ∀ n, (mk n).out = n.out)
    (hreads : ∀ n, (mk n).reads = n.inputNets) :
    Assign.Fresh {i | cg.GateDriven i} ((cg.nodes.filter fun sn => ¬ sn.IsSource).map mk) := by
  refine Assign.fresh_iff.2 fun pre a post heq i hi hD => ?_
  obtain ⟨k, n, hn, hsrc, rfl, hpre⟩ := exists_of_map_eq hmk heq
  rw [hreads] at hi
  obtain ⟨w, hw, hgate, rfl⟩ := h (n, k) (List.mem_zipIdx_iff_getElem?.2 hn) hsrc i hi hD
  exact hpre w hw hgate

/-- In a topological order no gate reads a net before it is written. -/
theorem fresh_of_gatesInOrder (h : cg.GatesInOrder) (fault : Option CompactFault) :
    Assign.Fresh {i | cg.GateDriven i} (nodeAssigns (fun _ => .PASS) fault cg.nodes) :=
  fresh_map_of_gatesInOrder h (fun _ => rfl) nodeReads_pass

/-- **One pass computes every net from the nets no gate drives.** -/
theorem evaluateCombinational_congr (hpass : cg.passNodes = cg.nodes) (h : cg.GatesInOrder)
    (fault : Option CompactFault) {x y : Values} (hxy : ∀ i, ¬ cg.GateDriven i → x i = y i) :
    evaluateCombinational cg x fault none = evaluateCombinational cg y fault none := by
  rw [evaluateCombinational_eq_run, evaluateCombinational_eq_run, hpass]
  funext i
  exact Assign.run_agree (fresh_of_gatesInOrder h fault) hxy mem_outs_nodeAssigns.2

end Golden

/-- **The order of the compiled nodes is topological exactly when the branches are
placed right**, and then one evaluation pass computes every net from the inputs,
the flip-flop outputs and the undriven nets. -/
theorem nodes_topological_iff (g : CachedGraph) (hac : g.ng.Acyclic) :
    (g.cg.Topological ↔ ForksPlaced g.low.nodes) ∧
      (ForksPlaced g.low.nodes → g.cg.SourcesAlone → ∀ (fault : Option CompactFault) (x y : Values),
        (∀ i, ¬ g.cg.GateDriven i → x i = y i) →
        Golden.evaluateCombinational g.cg x fault none =
          Golden.evaluateCombinational g.cg y fault none) := by
  refine ⟨g.topological_iff hac, fun hforks halone fault x y hxy => ?_⟩
  have hord := (g.topological_of_forksPlaced hac hforks).gatesInOrder halone
  exact Golden.evaluateCombinational_congr g.passNodes_eq hord fault hxy

/-- Two flip-flops on one clock, the first behind an inverter. -/
def twoFlops : CachedGraph :=
  .load (.ofCells [("d", 2), ("ck", 3)] [("q", 5), ("r", 6)]
      [("g", .ofPins "INV" [("A", 2), ("Y", 4)]),
       ("f1", .ofPins "DFF" [("D", 4), ("CK", 3), ("Q", 5)]),
       ("f2", .ofPins "DFF" [("D", 5), ("CK", 3), ("Q", 6)])])
    smallCells "fail" ∅ (by decide +kernel) (by decide +kernel)

theorem twoFlops_topological : twoFlops.ng.Acyclic ∧ twoFlops.cg.Topological ∧
    ∀ (fault : Option CompactFault) (x y : Values),
      (∀ i, ¬ twoFlops.cg.GateDriven i → x i = y i) →
      Golden.evaluateCombinational twoFlops.cg x fault none =
        Golden.evaluateCombinational twoFlops.cg y fault none := by
  have hac : twoFlops.ng.Acyclic := twoFlops.levelized.acyclic_iff.2 (by decide +kernel)
  have hforks : ForksPlaced twoFlops.low.nodes := by decide +kernel
  have h := nodes_topological_iff twoFlops hac
  exact ⟨hac, h.1.2 hforks, h.2 hforks (by decide +kernel)⟩

/-- Two flip-flops on a buffered clock. -/
def bufferedClock : CachedGraph :=
  .load (.ofCells [("d", 2), ("ck", 3)] [("q", 5), ("r", 6)]
      [("b", .ofPins "BUF" [("A", 3), ("Y", 4)]),
       ("f1", .ofPins "DFF" [("D", 2), ("CK", 4), ("Q", 5)]),
       ("f2", .ofPins "DFF" [("D", 5), ("CK", 4), ("Q", 6)])])
    smallCells "fail" ∅ (by decide +kernel) (by decide +kernel)

/-- The branches of the buffered clock come before the buffer. -/
theorem bufferedClock_not_topological :
    bufferedClock.ng.Acyclic ∧ ¬ bufferedClock.cg.Topological :=
  ⟨bufferedClock.levelized.acyclic_iff.2 (by decide +kernel), by decide +kernel⟩

end FaultFlow
