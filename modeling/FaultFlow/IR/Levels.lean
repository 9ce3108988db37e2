/-
# Levels of an acyclic netlist

A netlist is acyclic when no node feeds itself through its combinational inputs
(`Acyclic`; a flip-flop's inputs do not count).  On such a netlist the levels
that `from_parsed` computes increase from the driver of an input to the node
(`level_lt_of_feeds`), and the nodes at level `0` are the flip-flops and the
nodes none of whose input pins is driven (`level_eq_zero_iff`).
-/

import FaultFlow.IR.NormalizedFacts

namespace FaultFlow

namespace NormalizedGraph

/-- Node `u` drives an input pin of node `v`, which is not a flip-flop. -/
def Feeds (ng : NormalizedGraph) (u v : Nat) : Prop :=
  ∃ node ∈ ng.nodes, node.id = v ∧ node.type ≠ .FF ∧
    ∃ p ∈ node.inputPins.toList, ng.driver p.2 = some u

/-- The combinational part has no cycle. -/
def Acyclic (ng : NormalizedGraph) : Prop := ∀ v, ¬ Relation.TransGen (Feeds ng) v v

/-- Some input pin of the node is on a driven net. -/
def HasDrivenInput (ng : NormalizedGraph) (node : NormNode) : Prop :=
  ∃ p ∈ node.inputPins.toList, (ng.driver p.2).isSome

/-- A graph as `from_parsed` returns it: the invariant of elaboration, and the
levels of its own nodes. -/
structure Levelized (ng : NormalizedGraph) : Prop where
  inv : Inv ng
  level : ∀ node ∈ ng.nodes,
    node.level = Lib.Kahn.levels (ng.nodes.map NormNode.id) (levelEdges ng) node.id

theorem bind_driver (ng : NormalizedGraph) (y : YosysNetID) :
    (ng.nets[y]?).bind NormNet.driver = ng.driver y := by
  rw [driver, Std.TreeMap.getD_eq_getD_getElem?]
  cases ng.nets[y]? <;> rfl

variable {ng : NormalizedGraph} {u v : Nat} {n m : NormNode}

theorem mem_levelEdges :
    (u, v) ∈ levelEdges ng ↔ Feeds ng u v ∧ u ≠ v ∧ u ∈ ng.nodes.map NormNode.id := by
  simp only [levelEdges, List.mem_flatMap, Feeds]
  constructor
  · rintro ⟨node, hnode, hmem⟩
    split at hmem
    · simp at hmem
    next htype =>
    obtain ⟨p, hp, hmem⟩ := List.mem_filterMap.1 hmem
    rw [bind_driver] at hmem
    split at hmem
    · next d hd =>
      split at hmem
      · next hcond =>
        obtain ⟨rfl, rfl⟩ := Prod.mk.inj (Option.some.inj hmem)
        exact ⟨⟨node, hnode, rfl, htype, p, hp, hd⟩, hcond⟩
      · cases hmem
    · cases hmem
  · rintro ⟨⟨node, hnode, rfl, htype, p, hp, hd⟩, hcond⟩
    refine ⟨node, hnode, ?_⟩
    rw [if_neg htype]
    refine List.mem_filterMap.2 ⟨p, hp, ?_⟩
    rw [bind_driver, hd]
    simp only [if_pos hcond]

theorem levelEdges_levelize (ng : NormalizedGraph) : levelEdges (levelize ng) = levelEdges ng := by
  simp only [levelEdges, levelize, List.flatMap_map, List.map_map, Function.comp_def]

/-- **What `from_parsed` returns is levelized.** -/
theorem levelized_of_fromParsed {mod : ParsedModule} {cellMap : CellMap} {policy : String}
    {bb : Std.TreeSet String} (hok : fromParsed mod cellMap policy bb = .ok ng) : Levelized ng := by
  unfold fromParsed at hok
  obtain ⟨b, hb, hret⟩ := Lib.bind_eq_ok.1 hok
  cases hret
  refine ⟨(elaborate_inv hb).ng.levelize, fun node hnode => ?_⟩
  rw [levelEdges_levelize]
  obtain ⟨n, -, rfl⟩ := List.mem_map.1 hnode
  simp [levelize, Function.comp_def]

theorem Inv.ids_nodup (h : Inv ng) : (ng.nodes.map NormNode.id).Nodup := by
  rw [h.ids]
  exact List.nodup_range'

/-- A node is known by its number. -/
theorem Inv.eq_of_id (h : Inv ng) (hn : n ∈ ng.nodes) (hm : m ∈ ng.nodes) (hid : n.id = m.id) :
    n = m :=
  List.inj_on_of_nodup_map h.ids_nodup hn hm hid

theorem Feeds.mem_ids (h : Inv ng) (hf : Feeds ng u v) :
    u ∈ ng.nodes.map NormNode.id ∧ v ∈ ng.nodes.map NormNode.id := by
  obtain ⟨node, hnode, rfl, -, p, -, hd⟩ := hf
  obtain ⟨n, hn, rfl, -⟩ := h.driver p.2 u hd
  exact ⟨List.mem_map_of_mem hn, List.mem_map_of_mem hnode⟩

/-- On an acyclic graph the levels follow every edge. -/
theorem mem_levelEdges_of_acyclic (h : Inv ng) (hac : Acyclic ng) :
    (u, v) ∈ levelEdges ng ↔ Feeds ng u v := by
  rw [mem_levelEdges]
  refine ⟨And.left, fun hf => ⟨hf, ?_, (hf.mem_ids h).1⟩⟩
  rintro rfl
  exact hac u (.single hf)

/-- **Levels increase along the combinational edges.** -/
theorem Levelized.level_lt_of_feeds (h : Levelized ng) (hac : Acyclic ng) (hn : n ∈ ng.nodes)
    (hm : m ∈ ng.nodes) (hf : Feeds ng n.id m.id) : n.level < m.level := by
  rw [h.level n hn, h.level m hm]
  refine Lib.Kahn.levels_lt h.inv.ids_nodup ?_ ?_ ((mem_levelEdges_of_acyclic h.inv hac).2 hf)
  · rintro ⟨u, v⟩ he
    exact ((mem_levelEdges_of_acyclic h.inv hac).1 he).mem_ids h.inv
  · simp only [mem_levelEdges_of_acyclic h.inv hac]
    exact hac

/-- A flip-flop, and a node without a driven input, is at level `0`. -/
theorem Levelized.level_eq_zero (h : Levelized ng) (hm : m ∈ ng.nodes)
    (hcase : m.type = .FF ∨ ¬ HasDrivenInput ng m) : m.level = 0 := by
  rw [h.level m hm]
  refine Lib.Kahn.levels_eq_zero fun u hu => ?_
  obtain ⟨m', hm', hid, htype, p, hp, hd⟩ := (mem_levelEdges.1 hu).1
  obtain rfl := h.inv.eq_of_id hm' hm hid
  rcases hcase with hff | hno
  · exact htype hff
  · exact hno ⟨p, hp, by simp [hd]⟩

/-- **The nodes at level `0`** of an acyclic graph are no others. -/
theorem Levelized.level_eq_zero_iff (h : Levelized ng) (hac : Acyclic ng) (hm : m ∈ ng.nodes) :
    m.level = 0 ↔ m.type = .FF ∨ ¬ HasDrivenInput ng m := by
  refine ⟨fun h0 => ?_, h.level_eq_zero hm⟩
  by_contra hcon
  rw [not_or, not_not] at hcon
  obtain ⟨htype, p, hp, hd⟩ := hcon
  obtain ⟨d, hd⟩ := Option.isSome_iff_exists.1 hd
  obtain ⟨n, hn, rfl, -⟩ := h.inv.driver p.2 d hd
  have := h.level_lt_of_feeds hac hn hm ⟨m, hm, rfl, htype, p, hp, hd⟩
  omega

/-- The levels increase along every combinational edge. -/
def LevelsIncrease (ng : NormalizedGraph) : Prop :=
  ∀ m ∈ ng.nodes, m.type ≠ .FF → ∀ p ∈ m.inputPins.toList, ∀ n ∈ ng.nodes,
    ng.driver p.2 = some n.id → n.level < m.level

instance (ng : NormalizedGraph) : Decidable (LevelsIncrease ng) :=
  inferInstanceAs (Decidable (∀ m ∈ ng.nodes, m.type ≠ .FF → ∀ p ∈ m.inputPins.toList,
    ∀ n ∈ ng.nodes, ng.driver p.2 = some n.id → n.level < m.level))

/-- **The levels decide whether the graph is acyclic.** -/
theorem Levelized.acyclic_iff (h : Levelized ng) : Acyclic ng ↔ LevelsIncrease ng := by
  constructor
  · intro hac m hm htype p hp n hn hd
    exact h.level_lt_of_feeds hac hn hm ⟨m, hm, rfl, htype, p, hp, hd⟩
  · intro hlev v hv
    have hstep : ∀ {u w}, Feeds ng u w →
        ∃ n ∈ ng.nodes, ∃ m ∈ ng.nodes, n.id = u ∧ m.id = w ∧ n.level < m.level := by
      rintro u w ⟨m, hm, rfl, htype, p, hp, hd⟩
      obtain ⟨n, hn, rfl, -⟩ := h.inv.driver p.2 u hd
      exact ⟨n, hn, m, hm, rfl, rfl, hlev m hm htype p hp n hn hd⟩
    have hpath : ∀ {u w}, Relation.TransGen (Feeds ng) u w →
        ∃ n ∈ ng.nodes, ∃ m ∈ ng.nodes, n.id = u ∧ m.id = w ∧ n.level < m.level := by
      intro u w huw
      induction huw with
      | single hf => exact hstep hf
      | tail _ hf ih =>
        obtain ⟨n, hn, m, hm, hu, hmid, hlt⟩ := ih
        obtain ⟨m', hm', w, hw, hmid', hwid, hlt'⟩ := hstep hf
        obtain rfl := h.inv.eq_of_id hm hm' (hmid.trans hmid'.symm)
        exact ⟨n, hn, w, hw, hu, hwid, hlt.trans hlt'⟩
    obtain ⟨n, hn, m, hm, hnv, hmv, hlt⟩ := hpath hv
    obtain rfl := h.inv.eq_of_id hn hm (hnv.trans hmv.symm)
    exact lt_irrefl _ hlt

end NormalizedGraph

end FaultFlow
