/-
# The lowered nodes, node by node

`lower` appends the simulation nodes of one normalized node after the other.  Apart
from the position of a flip-flop's configuration they depend on that node and the
numbering only: the list of lowered nodes is `lowerings` of the ordered nodes, put
together (`lower_nodes_eq`).
-/

import FaultFlow.IR.GraphCache

namespace FaultFlow

open Std (TreeMap)

namespace GraphCompiler

/-- A lowered node without the position of its configuration. -/
def LoweredNode.bare (ln : LoweredNode) : LoweredNode :=
  { ln with node := { ln.node with ffCfg := 0 } }

/-- The slots of a flip-flop. -/
def ffSlots (cfg : FFConfig) (m : NetIndex) : Fin 6 → Option CompiledNetIndex :=
  ((ffWiring cfg).foldl wireFf (fun _ => none, m)).1

/-- The node of one output of a gate. -/
def loweredOutput (m : NetIndex) (node : NormNode) (p : String × YosysNetID) : LoweredNode :=
  { node :=
      { type := outputType node.gateType p.1
        ins := (wireInputs (outputType node.gateType p.1) node.inputPins m).1
        out := (mapNet m p.2).1 }
    level := node.level
    owner := some node.id }

/-- The nodes that one normalized node is lowered to. -/
def lowerings (m : NetIndex) (node : NormNode) : List LoweredNode :=
  match node.type with
  | .FF => [{ node := { type := .DFF, ins := ffSlots node.ffConfig m,
                        out := (mapNet m node.ffConfig.outputNet).1 }
              level := 0, owner := some node.id }]
  | .GATE | .CONST => node.outputPins.toList.map (loweredOutput m node)
  | _ => []

/-- The pin that fills a slot: the last one in the table among those the cell has. -/
def slotPin (gt : GateType) (has : String → Bool) (s : Fin 6) : Option String :=
  (((wiring gt).filter fun w => w.2 = s ∧ has w.1 = true).getLast?).map Prod.fst

variable {m : NetIndex} {node : NormNode} {st : Lowering} {ng : NormalizedGraph}

/-- **What `wire_inputs` puts into a slot.** -/
theorem wireInputs_slot (gt : GateType) {pins : TreeMap String YosysNetID}
    (hcov : m.Covers fun y => ∃ pin : String, pins[pin]? = some y) (s : Fin 6) :
    (wireInputs gt pins m).1 s = (slotPin gt (fun pin => (pins[pin]?).isSome) s).bind
      fun pin => (pins[pin]?).bind fun y => m.y2c[y]? := by
  have hrun := Lib.foldl_visited (fun (visited : List (String × Fin 6))
      (st : (Fin 6 → Option CompiledNetIndex) × NetIndex) => st.2 = m ∧ ∀ s, st.1 s =
        ((((visited.filter fun w => w.2 = s ∧ (pins[w.1]?).isSome = true).getLast?).map
          Prod.fst).bind fun pin => (pins[pin]?).bind fun y => m.y2c[y]?))
    (f := wire pins) (l := wiring gt) (b := (fun _ => none, m)) ?_ ?_
  · exact hrun.2 s
  · exact ⟨rfl, fun _ => rfl⟩
  · rintro pre w post ⟨ins, m'⟩ - ⟨rfl, hins⟩
    unfold wire
    cases hpin : pins[w.1]? with
    | none =>
      refine ⟨rfl, fun s => ?_⟩
      have hout : [w].filter (fun w => w.2 = s ∧ (pins[w.1]?).isSome = true) = [] :=
        List.filter_cons_of_neg (by rw [hpin]; simp)
      rw [List.filter_append, hout, List.append_nil]
      exact hins s
    | some y =>
      obtain ⟨i, hi⟩ := hcov y ⟨w.1, hpin⟩
      simp only [mapNet_eq_of_some hi]
      refine ⟨trivial, fun s => ?_⟩
      by_cases hs : w.2 = s
      · have hin : [w].filter (fun w => w.2 = s ∧ (pins[w.1]?).isSome = true) = [w] :=
          List.filter_cons_of_pos (by rw [hpin]; simp [hs])
        rw [List.filter_append, hin, List.getLast?_concat, hs, Function.update_self,
          Option.map_some, Option.bind_some, hpin, Option.bind_some]
        exact hi.symm
      · have hout : [w].filter (fun w => w.2 = s ∧ (pins[w.1]?).isSome = true) = [] :=
          List.filter_cons_of_neg (by simp [hs])
        rw [List.filter_append, hout, List.append_nil, Function.update_of_ne (Ne.symm hs)]
        exact hins s

theorem foldl_lowerOutput (hin : m.Covers (OnInput node)) {ps : List (String × YosysNetID)}
    (hps : ∀ p ∈ ps, ∃ i, m.y2c[p.2]? = some i) (hst : st.index = m) :
    ps.foldl (lowerOutput node) st =
      { st with nodes := st.nodes ++ ps.map (loweredOutput m node) } := by
  induction ps generalizing st with
  | nil => simp
  | cons p ps ih =>
    obtain ⟨i, hi⟩ := hps p (.head _)
    have hidx := (wireInputs_spec (outputType node.gateType p.1) hin).1
    have hstep : lowerOutput node st p =
        { st with nodes := st.nodes ++ [loweredOutput m node p] } := by
      simp only [lowerOutput, loweredOutput, hst, hidx, mapNet_eq_of_some hi]
    have hidx' : (lowerOutput node st p).index = m := by rw [hstep]; exact hst
    rw [List.foldl_cons, ih (fun q hq => hps q (.tail _ hq)) hidx', hstep]
    simp

/-- **One node of the ordered graph** adds its lowerings. -/
theorem lowerNode_nodes (hng : ng.Levelized) (hcov : m.Covers (· ∈ ng.nets))
    (hnode : node ∈ ng.nodes) {st' : Lowering} (hst : st.index = m)
    (hok : lowerNode st node = .ok st') : st'.index = m ∧
      st'.nodes.map LoweredNode.bare = st.nodes.map LoweredNode.bare ++ lowerings m node := by
  have hclosed := hng.inv.closed node hnode
  have hgates : st' = node.outputPins.toList.foldl (lowerOutput node) st →
      st'.index = m ∧ st'.nodes.map LoweredNode.bare =
        st.nodes.map LoweredNode.bare ++ node.outputPins.toList.map (loweredOutput m node) := by
    rintro rfl
    have hpins : ∀ p ∈ node.outputPins.toList, ∃ i, m.y2c[p.2]? = some i := fun p hp =>
      hcov p.2 (hclosed.outputs p.1 p.2 (TreeMap.mem_toList_iff_getElem?_eq_some.1 hp))
    rw [foldl_lowerOutput (fun y ⟨pin, hy⟩ => hcov y (hclosed.inputs pin y hy)) hpins hst]
    refine ⟨hst, ?_⟩
    rw [List.map_append, List.map_map]
    rfl
  unfold lowerNode at hok
  unfold lowerings
  cases ht : node.type with
  | FF =>
    rw [ht] at hok
    simp only [lowerFf] at hok
    split at hok
    · cases hok
    · cases hok
      have hffcov : m.Covers (· ∈ NormalizedGraph.ffNets node.ffConfig) :=
        fun y hy => hcov y (hclosed.ff ht y hy)
      have hidx := (wireFf_spec hffcov).1
      obtain ⟨i, hi⟩ := hffcov node.ffConfig.outputNet (by simp [NormalizedGraph.ffNets])
      simp only [hst, hidx, mapNet_eq_of_some hi, List.map_append, true_and]
      rfl
  | GATE =>
    rw [ht] at hok
    exact hgates (Except.ok.inj hok).symm
  | CONST =>
    rw [ht] at hok
    exact hgates (Except.ok.inj hok).symm
  | LATCH =>
    rw [ht] at hok
    cases hok
    simp [hst]
  | TBUF =>
    rw [ht] at hok
    cases hok
    simp [hst]
  | ICG =>
    rw [ht] at hok
    cases hok
    simp [hst]

/-- **The lowered nodes are those of the ordered nodes, put together.** -/
theorem lower_nodes_eq (hng : ng.Levelized) {low : Lowering} (hok : lower ng = .ok low) :
    low.nodes.map LoweredNode.bare = (ordered ng).flatMap (lowerings (initialIndex ng)) := by
  have hcov := (initialIndex_spec ng).2
  have hinv := Lib.foldlM_visited (fun (visited : List NormNode) (st : Lowering) =>
    st.index = initialIndex ng ∧
      st.nodes.map LoweredNode.bare = visited.flatMap (lowerings (initialIndex ng)))
    hok ⟨rfl, rfl⟩ ?_
  · exact hinv.2
  · rintro pre node post st st' hl ⟨hst, hnodes⟩ hstep
    have hnode : node ∈ ng.nodes := mem_ordered.1 (by rw [hl]; simp)
    obtain ⟨hidx, hadd⟩ := lowerNode_nodes hng hcov hnode hst hstep
    exact ⟨hidx, by rw [hadd, hnodes, List.flatMap_append, List.flatMap_singleton]⟩

end GraphCompiler

open GraphCompiler

namespace CachedGraph

variable (g : CachedGraph)

theorem low_nodes_eq :
    g.low.nodes.map LoweredNode.bare = (ordered g.ng).flatMap (lowerings g.low.index) := by
  rw [g.lowered.index]
  exact lower_nodes_eq g.levelized g.lower_eq

/-- The owner of the lowerings of a node. -/
theorem owner_of_mem_lowerings {m : NetIndex} {node : NormNode} {ln : LoweredNode}
    (hmem : ln ∈ lowerings m node) : ln.owner = some node.id := by
  unfold lowerings at hmem
  split at hmem
  · rw [List.mem_singleton.1 hmem]
  · obtain ⟨p, -, h⟩ := List.mem_map.1 hmem
    rw [← h]
    rfl
  · obtain ⟨p, -, h⟩ := List.mem_map.1 hmem
    rw [← h]
    rfl
  · exact absurd hmem List.not_mem_nil

/-- A lowered node is one of the lowerings of its owner. -/
theorem exists_lowerings {ln : LoweredNode} (hln : ln ∈ g.low.nodes) :
    ∃ node ∈ g.ng.nodes, ln.bare ∈ lowerings g.low.index node ∧ ln.owner = some node.id := by
  have hmem : ln.bare ∈ g.low.nodes.map LoweredNode.bare := List.mem_map_of_mem hln
  rw [g.low_nodes_eq] at hmem
  obtain ⟨node, hnode, hmem⟩ := List.mem_flatMap.1 hmem
  have howner : ln.bare.owner = some node.id := owner_of_mem_lowerings hmem
  exact ⟨node, mem_ordered.1 hnode, hmem, howner⟩

end CachedGraph

end FaultFlow
