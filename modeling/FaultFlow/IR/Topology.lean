/-
# The order of the compiled nodes

The evaluation passes visit the nodes in storage order (`passNodes_eq`), which
is by level and, within a level, by position before the sort (`mem_take_sorted`).
A pass computes a gate from values of the same pass when the order is
topological (`Topological`).

Two kinds of branch buffers stand in the wrong place.  A buffer is one level
below its consumer, but not below level `0`: the buffer of a gate on level `0`
comes after the gate.  And a flip-flop is on level `0` whatever drives it: the
buffer in front of a flip-flop comes before every gate above level `0`.  The
order is topological exactly when neither happens (`topological_iff`).
-/

import FaultFlow.IR.GraphCache
import FaultFlow.Lib.Positions

namespace FaultFlow

open GraphCompiler

namespace CompiledSimGraph

/-- Every input of a gate is undriven, or driven by a source, or driven by a
node before the gate. -/
def Topological (cg : CompiledSimGraph) : Prop :=
  ∀ p ∈ cg.nodes.zipIdx, ¬ p.1.IsSource → ∀ i ∈ p.1.inputNets,
    ¬ cg.Driven i ∨ (∃ w ∈ cg.nodes, w.out = i ∧ w.IsSource) ∨ ∃ w ∈ cg.nodes.take p.2, w.out = i

instance (cg : CompiledSimGraph) : Decidable cg.Topological :=
  inferInstanceAs (Decidable (∀ p ∈ cg.nodes.zipIdx, ¬ p.1.IsSource → ∀ i ∈ p.1.inputNets,
    ¬ cg.Driven i ∨ (∃ w ∈ cg.nodes, w.out = i ∧ w.IsSource) ∨
      ∃ w ∈ cg.nodes.take p.2, w.out = i))

end CompiledSimGraph

namespace GraphCompiler

/-! ## The sorted nodes -/

/-- The order of `rebuild_level_starts`, on nodes with their positions. -/
def ByLevel (a b : LoweredNode × ℕ) : Prop :=
  a.1.level < b.1.level ∨ (a.1.level = b.1.level ∧ a.2 ≤ b.2)

instance : DecidableRel ByLevel := fun a b =>
  inferInstanceAs (Decidable (a.1.level < b.1.level ∨ (a.1.level = b.1.level ∧ a.2 ≤ b.2)))

instance : Std.Total ByLevel := ⟨fun a b => by unfold ByLevel; omega⟩

instance : IsTrans (LoweredNode × ℕ) ByLevel := ⟨fun a b c => by unfold ByLevel; omega⟩

/-- Strictly before. -/
def Before (a b : LoweredNode × ℕ) : Prop :=
  a.1.level < b.1.level ∨ (a.1.level = b.1.level ∧ a.2 < b.2)

/-- The sorted nodes, with their positions before the sort. -/
def sorted (nodes : List LoweredNode) : List (LoweredNode × ℕ) := nodes.zipIdx.insertionSort ByLevel

theorem sortByLevel_eq (nodes : List LoweredNode) :
    sortByLevel nodes = (sorted nodes).map Prod.fst := rfl

theorem mem_sorted {nodes : List LoweredNode} {p : LoweredNode × ℕ} :
    p ∈ sorted nodes ↔ nodes[p.2]? = some p.1 := by
  rw [sorted, (List.perm_insertionSort _ _).mem_iff, List.mem_zipIdx_iff_getElem?]

theorem nodup_sorted (nodes : List LoweredNode) : (sorted nodes).Nodup := by
  refine (List.perm_insertionSort _ _).nodup_iff.2 (List.Nodup.of_map Prod.snd ?_)
  rw [List.zipIdx_map_snd]
  exact List.nodup_range'

/-- **Before a position stand the nodes of lower levels and the earlier nodes of
the same level.** -/
theorem mem_take_sorted {nodes : List LoweredNode} {k : ℕ} {p q : LoweredNode × ℕ}
    (hk : (sorted nodes)[k]? = some q) :
    p ∈ (sorted nodes).take k ↔ nodes[p.2]? = some p.1 ∧ Before p q := by
  have hq := mem_sorted.1 (List.mem_of_getElem? hk)
  have hs : (sorted nodes).Pairwise ByLevel := List.pairwise_insertionSort _ _
  rw [Lib.mem_take_iff ?_ hs (nodup_sorted nodes) hk, mem_sorted]
  · constructor
    · rintro ⟨hp, hle, hne⟩
      refine ⟨hp, ?_⟩
      rcases hle with hlt | ⟨heq, hle⟩
      · exact .inl hlt
      · refine .inr ⟨heq, lt_of_le_of_ne hle fun h => hne (Prod.ext ?_ h)⟩
        rw [h, hq] at hp
        exact (Option.some.inj hp).symm
    · rintro ⟨hp, hb⟩
      refine ⟨hp, hb.imp_right (And.imp_right le_of_lt), ?_⟩
      rintro rfl
      unfold Before at hb
      omega
  · -- the order is antisymmetric on the list, since a position has one node
    intro a ha b hb hab hba
    have h2 : a.2 = b.2 := by
      unfold ByLevel at hab hba
      omega
    rw [mem_sorted] at ha hb
    rw [h2, hb] at ha
    exact Prod.ext (Option.some.inj ha).symm h2

/-! ## The pass order -/

theorem levelChanges_bounds (i cur : ℕ) (ls : List ℕ) :
    (levelChanges i cur ls).Pairwise (· ≤ ·) ∧
      ∀ x ∈ levelChanges i cur ls, i ≤ x ∧ x < i + ls.length := by
  induction ls generalizing i cur with
  | nil => simp [levelChanges]
  | cons l ls ih =>
    unfold levelChanges
    split
    · obtain ⟨hp, hb⟩ := ih (i + 1) l
      refine ⟨List.pairwise_cons.2 ⟨fun x hx => ?_, hp⟩, fun x hx => ?_⟩
      · have := hb x hx
        omega
      · rw [List.length_cons]
        rcases List.mem_cons.1 hx with rfl | hx
        · omega
        · have := hb x hx
          omega
    · obtain ⟨hp, hb⟩ := ih (i + 1) cur
      refine ⟨hp, fun x hx => ?_⟩
      have := hb x hx
      rw [List.length_cons]
      omega

/-- The spans of `level_starts` cover the nodes from the first to the last. -/
theorem visit_levelStarts (levels : List ℕ) (h : levels ≠ []) :
    ((levelStarts levels).zip (levelStarts levels).tail).flatMap
      (fun p => List.range' p.1 (p.2 - p.1)) = List.range' 0 levels.length := by
  cases levels with
  | nil => exact absurd rfl h
  | cons l ls =>
    obtain ⟨hp, hb⟩ := levelChanges_bounds 1 l ls
    refine Lib.flatMap_spans (levelChanges 1 l ls) 0 (ls.length + 1) ?_
    rw [List.cons_append, List.pairwise_cons, List.pairwise_append]
    refine ⟨fun _ _ => Nat.zero_le _, hp, List.pairwise_singleton _ _, fun x hx y hy => ?_⟩
    have := hb x hx
    rw [List.mem_singleton.1 hy]
    omega

end GraphCompiler

namespace CachedGraph

variable (g : CachedGraph)

/-- **A pass visits the nodes in storage order.** -/
theorem passNodes_eq : g.cg.passNodes = g.cg.nodes := by
  unfold CompiledSimGraph.passNodes
  split
  · rename_i h2
    have hstarts : g.cg.levelStarts = levelStarts ((sortByLevel g.split.nodes).map LoweredNode.level) := by
      rw [g.cg_eq]
      rfl
    have hne : (sortByLevel g.split.nodes).map LoweredNode.level ≠ [] := by
      intro h
      rw [hstarts, h] at h2
      simp [levelStarts] at h2
    have hlen : ((sortByLevel g.split.nodes).map LoweredNode.level).length = g.cg.nodes.length := by
      rw [g.nodes_eq]
      simp
    rw [CompiledSimGraph.visitOrder, hstarts, visit_levelStarts _ hne, hlen,
      Lib.filterMap_getElem?_range']
  · rfl

variable {k i m : ℕ} {w : SimNode} {pin : String}

theorem mem_take_nodes {q : LoweredNode × ℕ} (hk : (sorted g.split.nodes)[k]? = some q) :
    w ∈ g.cg.nodes.take k ↔
      ∃ p : LoweredNode × ℕ, p.1.node = w ∧ g.split.nodes[p.2]? = some p.1 ∧ Before p q := by
  rw [g.nodes_eq, sortByLevel_eq, List.map_map, ← List.map_take, List.mem_map]
  constructor
  · rintro ⟨p, hp, rfl⟩
    exact ⟨p, rfl, (mem_take_sorted hk).1 hp⟩
  · rintro ⟨p, rfl, hp⟩
    exact ⟨p, (mem_take_sorted hk).2 hp, rfl⟩

theorem getElem?_nodes {n : SimNode} : g.cg.nodes[k]? = some n ↔
    ∃ q, (sorted g.split.nodes)[k]? = some q ∧ q.1.node = n := by
  rw [g.nodes_eq, sortByLevel_eq, List.map_map, List.getElem?_map, Option.map_eq_some_iff]
  rfl

theorem mem_nodes :
    w ∈ g.cg.nodes ↔ ∃ p : LoweredNode × ℕ, p.1.node = w ∧ g.split.nodes[p.2]? = some p.1 := by
  rw [g.nodes_eq, sortByLevel_eq, List.map_map, List.mem_map]
  constructor
  · rintro ⟨p, hp, rfl⟩
    exact ⟨p, rfl, mem_sorted.1 hp⟩
  · rintro ⟨p, rfl, hp⟩
    exact ⟨p, mem_sorted.2 hp, rfl⟩

/-- The order is topological when, among the nodes after the split, every input
of a gate that has a writer has one that is a source or comes before the gate. -/
theorem topological_iff_before : g.cg.Topological ↔
    ∀ q : LoweredNode × ℕ, g.split.nodes[q.2]? = some q.1 → ¬ q.1.node.IsSource →
      ∀ i, q.1.node.Reads i →
      (∃ p : LoweredNode × ℕ, g.split.nodes[p.2]? = some p.1 ∧ p.1.node.out = i) →
      ∃ p : LoweredNode × ℕ, g.split.nodes[p.2]? = some p.1 ∧ p.1.node.out = i ∧
        (p.1.node.IsSource ∨ Before p q) := by
  constructor
  · intro h q hq hsrc i hi ⟨p, hp, hout⟩
    obtain ⟨k, hk⟩ := List.getElem?_of_mem (mem_sorted.2 hq)
    have hn := g.getElem?_nodes.2 ⟨q, hk, rfl⟩
    rcases h (q.1.node, k) (List.mem_zipIdx_iff_getElem?.2 hn) hsrc i (SimNode.mem_inputNets.2 hi)
      with hun | ⟨w, hw, hwi, hws⟩ | ⟨w, hw, hwi⟩
    · exact absurd ⟨p.1.node, g.mem_nodes.2 ⟨p, rfl, hp⟩, hout⟩ hun
    · obtain ⟨p', rfl, hp'⟩ := g.mem_nodes.1 hw
      exact ⟨p', hp', hwi, .inl hws⟩
    · obtain ⟨p', rfl, hp', hb⟩ := (g.mem_take_nodes hk).1 hw
      exact ⟨p', hp', hwi, .inr hb⟩
  · intro h ⟨n, k⟩ hn hsrc i hi
    obtain ⟨q, hk, rfl⟩ := g.getElem?_nodes.1 (List.mem_zipIdx_iff_getElem?.1 hn)
    by_cases hd : g.cg.Driven i
    · obtain ⟨w, hw, hout⟩ := hd
      obtain ⟨p, rfl, hp⟩ := g.mem_nodes.1 hw
      obtain ⟨p', hp', hout', hs | hb⟩ := h q (mem_sorted.1 (List.mem_of_getElem? hk)) hsrc i
        (SimNode.mem_inputNets.1 hi) ⟨p, hp, hout⟩
      · exact .inr (.inl ⟨_, g.mem_nodes.2 ⟨p', rfl, hp'⟩, hout', hs⟩)
      · exact .inr (.inr ⟨_, (g.mem_take_nodes hk).2 ⟨p', rfl, hp', hb⟩, hout'⟩)
    · exact .inl hd

/-! ## Writers before and after the split -/

variable {ln : LoweredNode}

/-- A lowered node after the split, on the same position. -/
theorem exists_split (h : g.low.nodes[i]? = some ln) :
    ∃ ins, g.split.nodes[i]? = some (ln.withIns ins) := by
  obtain ⟨ins, hins, -⟩ := g.splitSpec.node i ln h
  exact ⟨ins, hins⟩

variable {sn : LoweredNode}

/-- A node after the split is a lowered node or the buffer of a branch. -/
theorem split_cases (h : g.split.nodes[i]? = some sn) :
    (∃ ln ins, g.low.nodes[i]? = some ln ∧ sn = ln.withIns ins) ∨
      ∃ j stem level, i = g.low.nodes.length + j ∧ sn = branchBuf stem (g.stemCount + j) level := by
  rcases Nat.lt_or_ge i g.low.nodes.length with hi | hi
  · left
    obtain ⟨ins, hins⟩ := g.exists_split (List.getElem?_eq_getElem hi)
    rw [h] at hins
    exact ⟨_, ins, List.getElem?_eq_getElem hi, Option.some.inj hins⟩
  · right
    obtain ⟨j, rfl⟩ := Nat.exists_eq_add_of_le hi
    obtain ⟨m, _, ln, _, -, -, -, hb, -⟩ := g.splitSpec.branch j (List.getElem?_eq_some_iff.1 h).1
    have := hb.buf
    rw [h] at this
    exact ⟨j, m, _, rfl, Option.some.inj this⟩

/-- The writers of a stem are those it had before the split. -/
theorem low_of_writes_stem (h : g.split.nodes[i]? = some sn) (hout : sn.node.out = m)
    (hm : m < g.stemCount) : ∃ ln ins, g.low.nodes[i]? = some ln ∧ sn = ln.withIns ins := by
  rcases g.split_cases h with hln | ⟨j, stem, level, -, rfl⟩
  · exact hln
  · have : g.stemCount + j = m := hout
    omega

/-- The only writer of a branch is its buffer. -/
theorem eq_of_writes_branch {j : ℕ} (h : g.split.nodes[i]? = some sn)
    (hout : sn.node.out = g.stemCount + j) : i = g.low.nodes.length + j := by
  rcases g.split_cases h with ⟨ln, ins, hln, rfl⟩ | ⟨j', stem, level, rfl, rfl⟩
  · have hlt := g.lt_stemCount_of_out (List.mem_of_getElem? hln)
    rw [show ln.node.out = g.stemCount + j from hout] at hlt
    exact absurd hlt (Nat.not_lt.2 (Nat.le_add_right _ _))
  · have : g.stemCount + j' = g.stemCount + j := hout
    omega

/-! ## Levels of the lowered nodes -/

theorem isSource_outputType {gt : GateType}
    (h : outputType gt pin = .INPUT ∨ outputType gt pin = .DFF) : gt = .INPUT ∨ gt = .DFF := by
  unfold outputType at h
  split at h
  · split at h <;> simp at h
  · split at h <;> simp at h
  · exact h

/-- A source that reads a net is a flip-flop, on level `0`. -/
theorem dff_of_isSource (hln : ln ∈ g.low.nodes) (hsrc : ln.node.IsSource) (hm : ln.node.Reads m) :
    ln.node.type = .DFF ∧ ln.level = 0 := by
  obtain ⟨node, hnode, h⟩ := g.exists_lowered hln
  cases h with
  | ff type _ level dff _ _ => exact ⟨dff, by rw [level, g.levelized.level_eq_zero hnode (.inl type)]⟩
  | gate pin net type _ _ _ _ gate slots =>
    exfalso
    rw [SimNode.IsSource, gate] at hsrc
    rcases isSource_outputType hsrc with hgate | hgate
    · obtain ⟨s, hs⟩ := hm
      obtain ⟨y, ⟨pin, hpin⟩, -⟩ := slots s m hs
      have hmem := Std.TreeMap.mem_toList_iff_getElem?_eq_some.2 hpin
      rw [(g.levelized.inv.input node hnode hgate).2.1] at hmem
      exact List.not_mem_nil hmem
    · have hff := (g.levelized.inv.dff node hnode).2 hgate
      rw [hff] at type
      rcases type with h | h <;> cases h

/-- A constant node is lowered to a gate. -/
theorem not_isSource_of_const {node : NormNode} (hnode : node ∈ g.ng.nodes)
    (hconst : node.type = .CONST) (hgate : ln.node.type = outputType node.gateType pin) :
    ¬ ln.node.IsSource := by
  intro hsrc
  rw [SimNode.IsSource, hgate] at hsrc
  rcases isSource_outputType hsrc with h | h
  · have := (g.levelized.inv.input node hnode h).1
    rw [hconst] at this
    cases this
  · have := (g.levelized.inv.dff node hnode).2 h
    rw [hconst] at this
    cases this

/-- On an acyclic netlist an input of a gate that is driven by gates is driven by
one on a lower level. -/
theorem exists_lower_gate (hac : g.ng.Acyclic) (hln : ln ∈ g.low.nodes) (hsrc : ¬ ln.node.IsSource)
    (hm : ln.node.Reads m) (hw : ∃ lw ∈ g.low.nodes, lw.node.out = m ∧ ¬ lw.node.IsSource) :
    ∃ lw ∈ g.low.nodes, lw.node.out = m ∧ ¬ lw.node.IsSource ∧ lw.level < ln.level := by
  obtain ⟨lw, hlw, hout, hgate⟩ := hw
  obtain ⟨reader, hreader, hr⟩ := g.exists_lowered hln
  obtain ⟨writer, hwriter, hwr⟩ := g.exists_lowered hlw
  cases hwr with
  | ff _ _ _ dff _ _ => exact absurd (.inr dff) hgate
  | gate pin net _ _ wlevel output out _ _ =>
    cases hr with
    | ff _ _ _ dff _ _ => exact absurd (.inr dff) hsrc
    | gate _ _ rtype _ rlevel _ _ _ slots =>
      obtain ⟨s, hs⟩ := hm
      obtain ⟨y, ⟨rpin, hrpin⟩, hy⟩ := slots s m hs
      obtain rfl : net = y := g.index_valid.inj (out.trans (by rw [hout])) hy
      have hnotff : reader.type ≠ .FF := by
        rintro h
        rw [h] at rtype
        rcases rtype with h | h <;> cases h
      -- the registered driver feeds the reader, whoever else writes the net
      have hlevel : ∀ d ∈ g.ng.nodes, g.ng.driver net = some d.id → d.level < ln.level := by
        intro d hd hdriver
        rw [rlevel]
        exact g.levelized.level_lt_of_feeds hac hd hreader ⟨reader, hreader, rfl, hnotff,
          (rpin, net), Std.TreeMap.mem_toList_iff_getElem?_eq_some.2 hrpin, hdriver⟩
      rcases g.levelized.inv.outputs writer hwriter pin net output with hd | ⟨c, hc, hconst, -, hd⟩
      · exact ⟨lw, hlw, hout, hgate, by rw [wlevel]; exact hlevel writer hwriter hd⟩
      · obtain ⟨d, hd', hid, cpin, hcpin⟩ := g.levelized.inv.driver net c.id hd
        obtain rfl := g.levelized.inv.eq_of_id hd' hc hid
        obtain ⟨lc, hlc, hlowered, hcout, htype⟩ := g.lowered.gate d (mem_ordered.2 hd')
          (.inr hconst) cpin net hcpin
        rw [← g.lowered.index, hy, Option.some.injEq] at hcout
        exact ⟨lc, hlc, hcout.symm, g.not_isSource_of_const hd' hconst htype,
          by rw [hlowered.level_eq]; exact hlevel d hd' hd⟩

end CachedGraph

namespace GraphCompiler

/-- The branch that node `ln` reads net `m` through is placed right: a gate is
above level `0`; a flip-flop reads a net that is undriven, a source's, or
written on level `0`. -/
def ForkPlaced (nodes : List LoweredNode) (ln : LoweredNode) (m : CompiledNetIndex) : Prop :=
  if ln.node.IsSource then
    (∃ w ∈ nodes, w.node.out = m) → ∃ w ∈ nodes, w.node.out = m ∧ (w.node.IsSource ∨ w.level = 0)
  else 0 < ln.level

instance (nodes : List LoweredNode) (ln : LoweredNode) (m : CompiledNetIndex) :
    Decidable (ForkPlaced nodes ln m) := by
  unfold ForkPlaced
  infer_instance

/-- Every branch is placed right. -/
def ForksPlaced (nodes : List LoweredNode) : Prop :=
  ∀ ln ∈ nodes, ∀ m ∈ ln.node.inputNets, Wide nodes m → ForkPlaced nodes ln m

instance (nodes : List LoweredNode) : Decidable (ForksPlaced nodes) :=
  inferInstanceAs (Decidable (∀ ln ∈ nodes, ∀ m ∈ ln.node.inputNets, Wide nodes m →
    ForkPlaced nodes ln m))

theorem branchBuf_not_isSource (stem branch level : ℕ) :
    ¬ (branchBuf stem branch level).node.IsSource := by
  simp [branchBuf, SimNode.IsSource]

end GraphCompiler

namespace CachedGraph

variable (g : CachedGraph)

/-- A writer of a stem before the split writes it after the split. -/
theorem writer_of_low {lw : LoweredNode} (hlw : lw ∈ g.low.nodes) :
    ∃ p : LoweredNode × ℕ, g.split.nodes[p.2]? = some p.1 ∧ p.2 < g.low.nodes.length ∧
      p.1.node.out = lw.node.out ∧ (p.1.node.IsSource ↔ lw.node.IsSource) ∧ p.1.level = lw.level := by
  obtain ⟨j, hj⟩ := List.getElem?_of_mem hlw
  obtain ⟨ins, hins⟩ := g.exists_split hj
  exact ⟨(_, j), hins, (List.getElem?_eq_some_iff.1 hj).1, rfl, Iff.rfl, rfl⟩

variable {q : LoweredNode × ℕ}

/-- A gate below the level of `q`, or on it and not moved by the split, is before
`q`. -/
theorem exists_gate_before_of_low {m : ℕ}
    (hw : ∃ lw ∈ g.low.nodes, lw.node.out = m ∧ ¬ lw.node.IsSource ∧ (lw.level < q.1.level ∨
      (lw.level = q.1.level ∧ g.low.nodes.length ≤ q.2))) :
    ∃ p : LoweredNode × ℕ, g.split.nodes[p.2]? = some p.1 ∧ p.1.node.out = m ∧
      ¬ p.1.node.IsSource ∧ Before p q := by
  obtain ⟨lw, hlw, rfl, hgate, hcase⟩ := hw
  obtain ⟨p, hp, hlt, hout, hsrc, hlevel⟩ := g.writer_of_low hlw
  refine ⟨p, hp, hout, mt hsrc.1 hgate, ?_⟩
  unfold Before
  omega

/-- The gates that write a stem, before the split. -/
theorem exists_low_gate {m : ℕ} (hm : m < g.stemCount)
    (hw : ∃ p : LoweredNode × ℕ, g.split.nodes[p.2]? = some p.1 ∧ p.1.node.out = m ∧
      ¬ p.1.node.IsSource) : ∃ lw ∈ g.low.nodes, lw.node.out = m ∧ ¬ lw.node.IsSource := by
  obtain ⟨p, hp, hout, hgate⟩ := hw
  obtain ⟨ln, ins, hln, heq⟩ := g.low_of_writes_stem hp hout hm
  rw [heq] at hout hgate
  exact ⟨ln, List.mem_of_getElem? hln, hout, hgate⟩

/-- An input of a lowered gate that gates drive is driven by one before it: a slot
is as it was, or reads a branch one level below. -/
theorem exists_gate_before_lowered (hac : g.ng.Acyclic)
    (hgates : ∀ ln ∈ g.low.nodes, ¬ ln.node.IsSource → ∀ m, ln.node.Reads m →
      Wide g.low.nodes m → 0 < ln.level) {i : ℕ} (hq : g.split.nodes[q.2]? = some q.1)
    (hlt : q.2 < g.low.nodes.length) (hsrc : ¬ q.1.node.IsSource) (hi : q.1.node.Reads i)
    (hw : ∃ p : LoweredNode × ℕ, g.split.nodes[p.2]? = some p.1 ∧ p.1.node.out = i ∧
      ¬ p.1.node.IsSource) :
    ∃ p : LoweredNode × ℕ, g.split.nodes[p.2]? = some p.1 ∧ p.1.node.out = i ∧
      ¬ p.1.node.IsSource ∧ Before p q := by
  obtain ⟨sn, k⟩ := q
  obtain ⟨ln, hln⟩ : ∃ ln, g.low.nodes[k]? = some ln := ⟨_, List.getElem?_eq_getElem hlt⟩
  have hmem := List.mem_of_getElem? hln
  obtain ⟨ins, hins, hslots⟩ := g.splitSpec.node k ln hln
  obtain rfl : sn = ln.withIns ins := Option.some.inj (hq.symm.trans hins)
  obtain ⟨s, hs⟩ := hi
  have hs' : ins s = some i := hs
  rcases hslots s with ⟨hkept, -⟩ | ⟨m, j, hm, hwide, hbr, hat, -⟩
  · rw [hs'] at hkept
    have hlw := g.exists_low_gate (g.lt_stemCount_of_ins hmem hkept.symm) hw
    obtain ⟨lw, hlw, hout, hgate, hl⟩ := g.exists_lower_gate hac hmem hsrc ⟨s, hkept.symm⟩ hlw
    exact g.exists_gate_before_of_low ⟨lw, hlw, hout, hgate, .inl hl⟩
  · have hpos := hgates ln hmem hsrc m ⟨s, hm⟩ hwide
    rw [hs', Option.some.injEq] at hbr
    refine ⟨(_, g.low.nodes.length + j), hat.buf, hbr.symm, branchBuf_not_isSource _ _ _,
      .inl ?_⟩
    show ln.level - 1 < ln.level
    omega

/-- A branch of a node comes after the gate that drives its stem, when one is below
the node. -/
theorem exists_gate_before_branch {m j level : ℕ}
    (hw : ∃ lw ∈ g.low.nodes, lw.node.out = m ∧ ¬ lw.node.IsSource ∧ lw.level ≤ level) :
    ∃ p : LoweredNode × ℕ, g.split.nodes[p.2]? = some p.1 ∧ p.1.node.out = m ∧
      ¬ p.1.node.IsSource ∧
      Before p (branchBuf m (g.stemCount + j) level, g.low.nodes.length + j) := by
  obtain ⟨lw, hlw, hout, hgate, hl⟩ := hw
  exact g.exists_gate_before_of_low ⟨lw, hlw, hout, hgate,
    (Nat.lt_or_eq_of_le hl).imp_right fun h => ⟨h, Nat.le_add_right _ _⟩⟩

/-- **An input that gates drive is driven by a gate before the reader**, when no
branch of a gate is on level `0`, and a branch of a flip-flop has its stem
written there. -/
theorem exists_gate_before (hac : g.ng.Acyclic)
    (hgates : ∀ ln ∈ g.low.nodes, ¬ ln.node.IsSource → ∀ m, ln.node.Reads m →
      Wide g.low.nodes m → 0 < ln.level) {i : ℕ}
    (hflops : ∀ ln ∈ g.low.nodes, ln.node.IsSource → ln.node.Reads i → Wide g.low.nodes i →
      ∃ lw ∈ g.low.nodes, lw.node.out = i ∧ ¬ lw.node.IsSource ∧ lw.level = 0)
    (hq : g.split.nodes[q.2]? = some q.1) (hsrc : ¬ q.1.node.IsSource) (hi : q.1.node.Reads i)
    (hw : ∃ p : LoweredNode × ℕ, g.split.nodes[p.2]? = some p.1 ∧ p.1.node.out = i ∧
      ¬ p.1.node.IsSource) :
    ∃ p : LoweredNode × ℕ, g.split.nodes[p.2]? = some p.1 ∧ p.1.node.out = i ∧
      ¬ p.1.node.IsSource ∧ Before p q := by
  rcases Nat.lt_or_ge q.2 g.low.nodes.length with hlt | hge
  · exact g.exists_gate_before_lowered hac hgates hq hlt hsrc hi hw
  · obtain ⟨sn, k⟩ := q
    obtain ⟨j, rfl⟩ := Nat.exists_eq_add_of_le hge
    obtain ⟨m, r, ln, s, hln, hm, hwide, hat, -⟩ :=
      g.splitSpec.branch j (List.getElem?_eq_some_iff.1 hq).1
    obtain rfl : sn = branchBuf m _ _ := Option.some.inj (hq.symm.trans hat.buf)
    obtain rfl := branchBuf_reads.1 hi
    have hmem := List.mem_of_getElem? hln
    have hlw := g.exists_low_gate (g.lt_stemCount_of_ins hmem hm) hw
    refine g.exists_gate_before_branch ?_
    by_cases hsource : ln.node.IsSource
    · obtain ⟨lw, hlw, hout, hgate, h0⟩ := hflops ln hmem hsource ⟨s, hm⟩ hwide
      exact ⟨lw, hlw, hout, hgate, by omega⟩
    · obtain ⟨lw, hlw, hout, hgate, hl⟩ := g.exists_lower_gate hac hmem hsource ⟨s, hm⟩ hlw
      exact ⟨lw, hlw, hout, hgate, by omega⟩

theorem topological_of_forksPlaced (hac : g.ng.Acyclic) (hforks : ForksPlaced g.low.nodes) :
    g.cg.Topological := by
  rw [g.topological_iff_before]
  intro q hq hsrc i hi ⟨p, hp, hout⟩
  by_cases hsources : ∃ p : LoweredNode × ℕ, g.split.nodes[p.2]? = some p.1 ∧
      p.1.node.out = i ∧ p.1.node.IsSource
  · obtain ⟨p, hp, hout, hs⟩ := hsources
    exact ⟨p, hp, hout, .inl hs⟩
  · have hgate : ∀ p : LoweredNode × ℕ, g.split.nodes[p.2]? = some p.1 → p.1.node.out = i →
        ¬ p.1.node.IsSource := fun p hp hout hs => hsources ⟨p, hp, hout, hs⟩
    have hgates : ∀ ln ∈ g.low.nodes, ¬ ln.node.IsSource → ∀ m, ln.node.Reads m →
        Wide g.low.nodes m → 0 < ln.level := by
      intro ln hln hsrc m hm hwide
      have := hforks ln hln m (SimNode.mem_inputNets.2 hm) hwide
      rwa [ForkPlaced, if_neg hsrc] at this
    have hflops : ∀ ln ∈ g.low.nodes, ln.node.IsSource → ln.node.Reads i → Wide g.low.nodes i →
        ∃ lw ∈ g.low.nodes, lw.node.out = i ∧ ¬ lw.node.IsSource ∧ lw.level = 0 := by
      intro ln hln hsource hreads hwide
      have hplaced := hforks ln hln i (SimNode.mem_inputNets.2 hreads) hwide
      rw [ForkPlaced, if_pos hsource] at hplaced
      obtain ⟨s, hs⟩ := hreads
      obtain ⟨lw, hlw, hwout, -⟩ := g.exists_low_gate (g.lt_stemCount_of_ins hln hs)
        ⟨p, hp, hout, hgate p hp hout⟩
      obtain ⟨lw, hlw, hwout, hcase⟩ := hplaced ⟨lw, hlw, hwout⟩
      obtain ⟨p', hp', -, hout', hsrc', -⟩ := g.writer_of_low hlw
      have hnot := mt hsrc'.2 (hgate p' hp' (hout'.trans hwout))
      exact ⟨lw, hlw, hwout, hnot, hcase.resolve_left hnot⟩
    obtain ⟨p, hp, hout, -, hb⟩ := g.exists_gate_before hac hgates hflops hq hsrc hi
      ⟨p, hp, hout, hgate p hp hout⟩
    exact ⟨p, hp, hout, .inr hb⟩

theorem forksPlaced_of_topological (h : g.cg.Topological) : ForksPlaced g.low.nodes := by
  rw [g.topological_iff_before] at h
  intro ln hmem m hm hwide
  obtain ⟨k, hk⟩ := List.getElem?_of_mem hmem
  obtain ⟨s, hs⟩ := SimNode.mem_inputNets.1 hm
  obtain ⟨ins, hins, hslots⟩ := g.splitSpec.node k ln hk
  obtain ⟨j, hbr, hat⟩ : ∃ j, ins s = some (g.stemCount + j) ∧
      BranchAt g.low.nodes g.low.index.c2y g.split j m (ln.level - 1) := by
    rcases hslots s with ⟨-, hnot⟩ | ⟨m', j, hm', -, hbr, hat, -⟩
    · exact absurd hwide (hnot m hs)
    · rw [hs, Option.some.injEq] at hm'
      subst hm'
      exact ⟨j, hbr, hat⟩
  unfold ForkPlaced
  split
  · rename_i hsource
    rintro ⟨lw, hlw, hout⟩
    have h0 := (g.dff_of_isSource hmem hsource ⟨s, hs⟩).2
    obtain ⟨p, hp, -, hpout, -, -⟩ := g.writer_of_low hlw
    -- the buffer is a gate, and reads the stem
    obtain ⟨p', hp', hpout', hcase⟩ := h (_, g.low.nodes.length + j) hat.buf
      (branchBuf_not_isSource _ _ _) m (branchBuf_reads.2 rfl) ⟨p, hp, hpout.trans hout⟩
    obtain ⟨lw', ins', hlw', heq⟩ := g.low_of_writes_stem hp' hpout'
      (g.lt_stemCount_of_ins hmem hs)
    have hlevel : lw'.level = p'.1.level := by rw [heq]; rfl
    rw [heq] at hpout' hcase
    refine ⟨lw', List.mem_of_getElem? hlw', hpout', hcase.imp_right fun hb => ?_⟩
    have hle : p'.1.level ≤ ln.level - 1 := by
      rcases hb with hb | ⟨hb, -⟩
      · exact le_of_lt hb
      · exact le_of_eq hb
    omega
  · rename_i hsource
    obtain ⟨p, hp, hout, hcase⟩ := h (_, k) hins hsource (g.stemCount + j) ⟨s, hbr⟩
      ⟨(_, g.low.nodes.length + j), hat.buf, rfl⟩
    have hidx := g.eq_of_writes_branch hp hout
    rw [hidx, hat.buf, Option.some.injEq] at hp
    have hklt := (List.getElem?_eq_some_iff.1 hk).1
    rcases hcase with hsrc | hlt | ⟨-, hlt⟩
    · rw [← hp] at hsrc
      exact absurd hsrc (branchBuf_not_isSource _ _ _)
    · rw [← hp] at hlt
      have : ln.level - 1 < ln.level := hlt
      omega
    · have : p.2 < k := hlt
      omega

/-- **The order is topological exactly when the branches are placed right.** -/
theorem topological_iff (hac : g.ng.Acyclic) : g.cg.Topological ↔ ForksPlaced g.low.nodes :=
  ⟨g.forksPlaced_of_topological, g.topological_of_forksPlaced hac⟩

end CachedGraph

end FaultFlow
