/-
# Drivers, fanout and ranks

What the test generator reads off the compiled graph.  `driver_index` gives for
every driven net a node that drives it (`driverIndex_spec`), the fanout rows list
the outputs of a net's readers (`mem_fanoutRow`), and on an acyclic netlist with
one driver per net there is a rank that increases from the inputs of every gate
to its output (`exists_rank`), wherever branch splitting has put the buffers.
-/

import FaultFlow.IR.ReadOrder

namespace FaultFlow

open GraphCompiler

namespace CompiledSimGraph

/-- No net has two drivers. -/
def SingleDriver (cg : CompiledSimGraph) : Prop := (cg.nodes.map SimNode.out).Nodup

instance (cg : CompiledSimGraph) : Decidable cg.SingleDriver :=
  inferInstanceAs (Decidable (cg.nodes.map SimNode.out).Nodup)

/-- Two nodes that drive one net are one. -/
theorem SingleDriver.eq {cg : CompiledSimGraph} (h : cg.SingleDriver) {n m : SimNode}
    (hn : n ∈ cg.nodes) (hm : m ∈ cg.nodes) (hout : n.out = m.out) : n = m :=
  List.inj_on_of_nodup_map h hn hm hout

/-- Every input is driven by an `INPUT` node. -/
def InputsDriven (cg : CompiledSimGraph) : Prop :=
  ∀ i ∈ cg.piNets, ∃ n ∈ cg.nodes, n.type = .INPUT ∧ n.out = i

instance (cg : CompiledSimGraph) : Decidable cg.InputsDriven :=
  inferInstanceAs (Decidable (∀ i ∈ cg.piNets, ∃ n ∈ cg.nodes, n.type = .INPUT ∧ n.out = i))

/-- The net rises from the inputs of every gate to its output. -/
def Ranked (cg : CompiledSimGraph) (rank : CompiledNetIndex → ℕ) : Prop :=
  ∀ n ∈ cg.nodes, ¬ n.IsSource → ∀ i ∈ n.inputNets, cg.GateDriven i → rank i < rank n.out

end CompiledSimGraph

namespace GraphCompiler

/-- `driver_index` after the nodes `visited`: a sound and complete table of drivers. -/
theorem driverIndex_spec (netCount : ℕ) (nodes : List SimNode)
    (hlt : ∀ n ∈ nodes, n.out < netCount) :
    (∀ i k : ℕ, (driverIndex netCount nodes)[i]? = some (some k) →
      ∃ n : SimNode, nodes[k]? = some n ∧ n.out = i) ∧
    ∀ n ∈ nodes, ∃ k : ℕ, (driverIndex netCount nodes)[n.out]? = some (some k) := by
  have key := Lib.foldl_visited (fun (pre : List (SimNode × ℕ)) (d : List (Option ℕ)) =>
      d.length = netCount ∧
        (∀ i k : ℕ, d[i]? = some (some k) → ∃ n : SimNode, nodes[k]? = some n ∧ n.out = i) ∧
        ∀ p ∈ pre, ∃ k : ℕ, d[p.1.out]? = some (some k))
    (f := fun d p => d.set p.1.out (some p.2)) (l := nodes.zipIdx)
    (b := List.replicate netCount none) ⟨by simp, ?_, by simp⟩ ?_
  · refine ⟨key.2.1, fun n hn => ?_⟩
    obtain ⟨k, hk⟩ := List.getElem?_of_mem hn
    exact key.2.2 (n, k) (List.mem_zipIdx_iff_getElem?.2 hk)
  · intro i k h
    rw [List.getElem?_replicate] at h
    split at h <;> simp at h
  · rintro pre ⟨n, k⟩ post d hl ⟨hlen, hsound, hcomplete⟩
    have hpair : (n, k) ∈ nodes.zipIdx := by simp [hl]
    have hmem : nodes[k]? = some n := List.mem_zipIdx_iff_getElem?.1 hpair
    have hout : n.out < d.length := hlen ▸ hlt n (List.mem_of_getElem? hmem)
    refine ⟨by simp [hlen], fun i j h => ?_, fun p hp => ?_⟩
    · rw [List.getElem?_set] at h
      split at h
      · rename_i hi
        rw [Option.some.injEq, Option.some.injEq] at h
        subst h hi
        exact ⟨n, hmem, rfl⟩
      · exact hsound i j h
    · rw [List.getElem?_set]
      split
      · exact ⟨k, rfl⟩
      · rename_i hne
        rcases List.mem_append.1 hp with hp | hp
        · exact hcomplete p hp
        · rw [List.mem_singleton.1 hp] at hne
          exact absurd rfl hne

end GraphCompiler

namespace CachedGraph

variable (g : CachedGraph)

/-- The nets are the stems and the branches. -/
theorem netCount_eq : g.cg.netCount = g.split.c2y.length := by
  rw [g.cg_eq]
  rfl

/-- The stems come first. -/
theorem stemCount_le_netCount : g.stemCount ≤ g.cg.netCount := by
  rw [netCount_eq, g.splitSpec.count]
  exact Nat.le_add_right _ _

variable {n : SimNode}

/-- Every net a node drives is in range. -/
theorem out_lt_netCount (hn : n ∈ g.cg.nodes) : n.out < g.cg.netCount := by
  obtain ⟨⟨sn, k⟩, rfl, hp⟩ := g.mem_nodes.1 hn
  rcases g.split_cases hp with ⟨ln, ins, hln, rfl⟩ | ⟨j, stem, level, hj, rfl⟩
  · have hlt : ln.node.out < g.stemCount := g.lt_stemCount_of_out (List.mem_of_getElem? hln)
    exact lt_of_lt_of_le hlt g.stemCount_le_netCount
  · rw [netCount_eq, g.splitSpec.count]
    have hlt : k < g.split.nodes.length := (List.getElem?_eq_some_iff.1 hp).1
    show g.low.index.c2y.length + j < _
    simp only at hj
    omega

variable {i : CompiledNetIndex}

/-- Every net a node reads is in range. -/
theorem reads_lt_netCount (hn : n ∈ g.cg.nodes) (hi : i ∈ n.inputNets) : i < g.cg.netCount := by
  obtain ⟨p, rfl, hp⟩ := g.mem_nodes.1 hn
  obtain ⟨sn, k⟩ := p
  obtain ⟨s, hs⟩ := SimNode.mem_inputNets.1 hi
  rcases Nat.lt_or_ge k g.low.nodes.length with hk | hk
  · obtain ⟨ln, hln⟩ : ∃ ln, g.low.nodes[k]? = some ln := ⟨_, List.getElem?_eq_getElem hk⟩
    obtain ⟨ins, hins, hslots⟩ := g.splitSpec.node k ln hln
    obtain rfl : sn = ln.withIns ins := Option.some.inj (hp.symm.trans hins)
    have hs' : ins s = some i := hs
    rcases hslots s with ⟨hkept, -⟩ | ⟨m, j, -, -, hbr, hat, -⟩
    · exact lt_of_lt_of_le (g.lt_stemCount_of_ins (List.mem_of_getElem? hln) (hkept ▸ hs'))
        g.stemCount_le_netCount
    · rw [hs', Option.some.injEq] at hbr
      rw [hbr]
      exact g.out_lt_netCount (g.mem_nodes.2 ⟨(_, _), rfl, hat.buf⟩)
  · obtain ⟨j, rfl⟩ := Nat.exists_eq_add_of_le hk
    obtain ⟨m, r, ln, t, hln, hm, -, hat, -⟩ := g.splitSpec.branch j (List.getElem?_eq_some_iff.1 hp).1
    obtain rfl : sn = branchBuf m _ _ := Option.some.inj (hp.symm.trans hat.buf)
    obtain rfl := branchBuf_reads.1 ⟨s, hs⟩
    exact lt_of_lt_of_le (g.lt_stemCount_of_ins (List.mem_of_getElem? hln) hm) g.stemCount_le_netCount

/-- **The net that a Yosys number stands for** is the net itself, or the stem that
its branch buffer reads. -/
theorem exists_stem {i : ℕ} (hi : i < g.cg.netCount) :
    ∃ s, g.cg.yosysToCompiled[g.cg.yosysOf i]? = some s ∧
      (s = i ∨ ∃ n ∈ g.cg.nodes, n.type = .BUF ∧ n.inputNets = [s] ∧ n.out = i) := by
  rcases Nat.lt_or_ge i g.stemCount with hstem | hbranch
  · have hy := (g.index_valid (g.low.index.c2y.get ⟨i, hstem⟩) i).2 (by simp)
    rw [← g.yosysToCompiled_eq] at hy
    refine ⟨i, ?_, .inl rfl⟩
    rw [g.yosysOf_eq hy, hy]
  · obtain ⟨j, rfl⟩ := Nat.exists_eq_add_of_le hbranch
    have hj : g.low.nodes.length + j < g.split.nodes.length := by
      have hcount := g.splitSpec.count
      rw [netCount_eq, hcount, stemCount] at hi
      omega
    obtain ⟨m, _, ln, _, hln, hm, -, hat, -⟩ := g.splitSpec.branch j hj
    have hlt : m < g.stemCount := g.lt_stemCount_of_ins (List.mem_of_getElem? hln) hm
    have hy := (g.index_valid (g.low.index.c2y.get ⟨m, hlt⟩) m).2 (by simp)
    have hsite : g.cg.yosysOf (g.stemCount + j) = g.low.index.c2y.get ⟨m, hlt⟩ := by
      rw [CompiledSimGraph.yosysOf, compiledToYosys_eq, List.getD_eq_getElem?_getD, stemCount,
        hat.site, (g.index_valid _ m).1 hy]
      rfl
    refine ⟨m, ?_, .inr ⟨_, g.mem_nodes.2 ⟨(_, _), rfl, hat.buf⟩, rfl, rfl, rfl⟩⟩
    rw [hsite, yosysToCompiled_eq, hy]

/-- The driver index of the graph. -/
theorem driverIndex_eq : g.cg.driverIndex = driverIndex g.cg.netCount g.cg.nodes := by
  rw [g.cg_eq]
  rfl

/-- The fanout row of a net lists the outputs of its consumers, once for every slot. -/
theorem fanoutRows_getD (hi : i < g.cg.netCount) :
    g.cg.fanoutRows.getD i [] =
      g.cg.nodes.flatMap fun sn => (sn.slots.filter fun o => o = some i).map fun _ => sn.out := by
  have hrows : g.cg.fanoutRows = fanoutRows g.cg.netCount g.cg.nodes := by
    rw [g.cg_eq]
    rfl
  rw [hrows, fanoutRows, List.getD_eq_getElem?_getD, List.getElem?_map, List.getElem?_range hi]
  rfl

/-- Beyond the nets there is no fanout. -/
theorem fanoutRows_getD_of_le (hi : ¬ i < g.cg.netCount) :
    g.cg.fanoutRows.getD i [] = [] := by
  have hrows : g.cg.fanoutRows = fanoutRows g.cg.netCount g.cg.nodes := by
    rw [g.cg_eq]
    rfl
  rw [hrows, fanoutRows, List.getD_eq_getElem?_getD, List.getElem?_map,
    List.getElem?_eq_none (by simpa using hi)]
  rfl

/-- The fanout row of a net: the outputs of the nodes that read it. -/
theorem mem_fanoutRow {i t : CompiledNetIndex} :
    t ∈ g.cg.fanoutRows.getD i [] ↔ ∃ n ∈ g.cg.nodes, i ∈ n.inputNets ∧ n.out = t := by
  by_cases hi : i < g.cg.netCount
  · rw [g.fanoutRows_getD hi]
    simp only [List.mem_flatMap, List.mem_map, List.mem_filter, decide_eq_true_eq]
    refine exists_congr fun n => and_congr_right fun _ => ?_
    rw [SimNode.mem_inputNets, SimNode.Reads]
    constructor
    · rintro ⟨o, ⟨ho, rfl⟩, rfl⟩
      exact ⟨SimNode.mem_slots.1 ho, rfl⟩
    · rintro ⟨hs, rfl⟩
      exact ⟨some i, ⟨SimNode.mem_slots.2 hs, rfl⟩, rfl⟩
  · rw [g.fanoutRows_getD_of_le hi]
    refine ⟨fun h => absurd h List.not_mem_nil, ?_⟩
    rintro ⟨n, hn, hin, -⟩
    exact absurd (g.reads_lt_netCount hn hin) hi

/-- An `INPUT` node reads nothing. -/
theorem inputNets_eq_nil (hcomb : g.cg.Combinational) (hn : n ∈ g.cg.nodes) (hsrc : n.IsSource) :
    n.inputNets = [] := by
  refine List.eq_nil_iff_forall_not_mem.2 fun i hi => ?_
  obtain ⟨⟨sn, k⟩, rfl, hp⟩ := g.mem_nodes.1 hn
  rcases Nat.lt_or_ge k g.low.nodes.length with hk | hk
  · obtain ⟨ln, hln⟩ : ∃ ln, g.low.nodes[k]? = some ln := ⟨_, List.getElem?_eq_getElem hk⟩
    obtain ⟨ins, hins, hslots⟩ := g.splitSpec.node k ln hln
    obtain rfl : sn = ln.withIns ins := Option.some.inj (hp.symm.trans hins)
    obtain ⟨s, hs⟩ := SimNode.mem_inputNets.1 hi
    -- a slot is used after the split exactly when it was before
    obtain ⟨m, hm⟩ : ∃ m, ln.node.ins s = some m := by
      rcases hslots s with ⟨hkept, -⟩ | ⟨m, -, hm, -⟩
      · exact ⟨i, hkept ▸ hs⟩
      · exact ⟨m, hm⟩
    exact hcomb _ hn (g.dff_of_isSource (List.mem_of_getElem? hln) hsrc ⟨s, hm⟩).1
  · obtain ⟨j, stem, level, -, rfl⟩ := (g.split_cases hp).resolve_left fun ⟨ln, _, hln, _⟩ =>
      absurd (List.getElem?_eq_some_iff.1 hln).1 (Nat.not_lt.2 hk)
    exact branchBuf_not_isSource _ _ _ hsrc

/-- A gate whose input some node drives is above level `0`. -/
theorem level_pos (hcomb : g.cg.Combinational) (hac : g.ng.Acyclic) {ln : LoweredNode}
    (hln : ln ∈ g.low.nodes) (hsrc : ¬ ln.node.IsSource) {m : ℕ} (hm : ln.node.Reads m)
    (hdriven : g.cg.Driven m) : 0 < ln.level := by
  obtain ⟨s, hs⟩ := hm
  obtain ⟨w, hw, hout⟩ := hdriven
  obtain ⟨p, rfl, hp⟩ := g.mem_nodes.1 hw
  obtain ⟨lw, ins, hlw, heq⟩ := g.low_of_writes_stem hp hout (g.lt_stemCount_of_ins hln hs)
  rw [heq] at hout
  have hlwout : lw.node.out = m := hout
  obtain ⟨reader, hreader, hr⟩ := g.exists_lowered hln
  obtain ⟨writer, hwriter, hwr⟩ := g.exists_lowered (List.mem_of_getElem? hlw)
  obtain ⟨pin, net, output, hnet⟩ : ∃ pin net, writer.outputPins[pin]? = some net ∧
      g.low.index.y2c[net]? = some m := by
    cases hwr with
    | ff _ _ _ dff _ _ =>
      obtain ⟨n, hn, htype, -⟩ := g.exists_node_of_low (List.mem_of_getElem? hlw)
      exact absurd (htype.trans dff) (hcomb n hn)
    | gate pin net _ _ _ output out _ _ => exact ⟨pin, net, output, hlwout ▸ out⟩
  cases hr with
  | ff _ _ _ dff _ _ => exact absurd (.inr dff) hsrc
  | gate _ _ rtype _ rlevel _ _ _ slots =>
    obtain ⟨y, ⟨rpin, hrpin⟩, hy⟩ := slots s m hs
    obtain rfl : net = y := g.index_valid.inj hnet hy
    rw [rlevel]
    refine Nat.pos_of_ne_zero fun h0 => ?_
    rcases (g.levelized.level_eq_zero_iff hac hreader).1 h0 with hff | hno
    · rw [hff] at rtype
      rcases rtype with h | h <;> cases h
    · refine hno ⟨(rpin, net), Std.TreeMap.mem_toList_iff_getElem?_eq_some.2 hrpin, ?_⟩
      rcases g.levelized.inv.outputs writer hwriter pin net output with hd | ⟨c, -, -, -, hd⟩
      · simp [hd]
      · simp [hd]

/-- **Where every net is driven, the branches are placed right.** -/
theorem forksPlaced_of_driven (hcomb : g.cg.Combinational) (hac : g.ng.Acyclic)
    (hdriven : ∀ i < g.cg.netCount, g.cg.Driven i) : ForksPlaced g.low.nodes := by
  intro ln hln m hm _
  obtain ⟨s, hs⟩ := SimNode.mem_inputNets.1 hm
  have hlt : m < g.cg.netCount :=
    lt_of_lt_of_le (g.lt_stemCount_of_ins hln hs) g.stemCount_le_netCount
  unfold ForkPlaced
  split
  · rename_i hsrc
    obtain ⟨n, hn, htype, -⟩ := g.exists_node_of_low hln
    exact absurd (htype.trans (g.dff_of_isSource hln hsrc ⟨s, hs⟩).1) (hcomb n hn)
  · rename_i hsrc
    exact g.level_pos hcomb hac hln hsrc ⟨s, hs⟩ (hdriven m hlt)

/-! ## Ranks -/

open Classical in
/-- The rank of a net: twice the level of the gate that drives it, with the
branches just below their consumers. -/
noncomputable def rank (i : CompiledNetIndex) : ℕ :=
  if h : ∃ lw ∈ g.low.nodes, lw.node.out = i ∧ ¬ lw.node.IsSource then 2 * h.choose.level + 2
  else 2 * g.branchConsumer (i - g.stemCount) + 1

/-- With one driver per net, a net is written at one position. -/
theorem eq_of_split_out (hone : g.cg.SingleDriver) {p q : LoweredNode × ℕ}
    (hp : g.split.nodes[p.2]? = some p.1) (hq : g.split.nodes[q.2]? = some q.1)
    (hout : p.1.node.out = q.1.node.out) : p = q := by
  rw [CompiledSimGraph.SingleDriver, g.nodes_eq, sortByLevel_eq, List.map_map, List.map_map] at hone
  exact List.inj_on_of_nodup_map hone (mem_sorted.2 hp) (mem_sorted.2 hq) hout

/-- A stem has one lowered driver. -/
theorem eq_of_low_out (hone : g.cg.SingleDriver) {a b : LoweredNode} (ha : a ∈ g.low.nodes)
    (hb : b ∈ g.low.nodes) (hout : a.node.out = b.node.out) : a = b := by
  obtain ⟨i, hi⟩ := List.getElem?_of_mem ha
  obtain ⟨j, hj⟩ := List.getElem?_of_mem hb
  obtain ⟨insa, ha'⟩ := g.exists_split hi
  obtain ⟨insb, hb'⟩ := g.exists_split hj
  have heq : (a.withIns insa, i) = (b.withIns insb, j) := g.eq_of_split_out hone ha' hb' hout
  obtain rfl : i = j := congrArg Prod.snd heq
  exact Option.some.inj (hi.symm.trans hj)

/-- A gate is ranked by its level. -/
theorem rank_of_gate (hone : g.cg.SingleDriver) {lw : LoweredNode} (hlw : lw ∈ g.low.nodes)
    (hgate : ¬ lw.node.IsSource) : g.rank lw.node.out = 2 * lw.level + 2 := by
  have h : ∃ lw' ∈ g.low.nodes, lw'.node.out = lw.node.out ∧ ¬ lw'.node.IsSource :=
    ⟨lw, hlw, rfl, hgate⟩
  rw [rank, dif_pos h, g.eq_of_low_out hone h.choose_spec.1 hlw h.choose_spec.2.1]

/-- A branch is ranked just below its consumer. -/
theorem rank_of_branch (j : ℕ) : g.rank (g.stemCount + j) = 2 * g.branchConsumer j + 1 := by
  rw [rank, dif_neg, Nat.add_sub_cancel_left]
  rintro ⟨lw, hlw, hout, -⟩
  have hlt := g.lt_stemCount_of_out hlw
  rw [hout] at hlt
  exact absurd hlt (Nat.not_lt.2 (Nat.le_add_right _ _))

/-- **Ranks rise through every gate** of an acyclic combinational netlist with
one driver per net. -/
theorem ranked (hcomb : g.cg.Combinational) (hac : g.ng.Acyclic) (hone : g.cg.SingleDriver) :
    g.cg.Ranked g.rank := by
  intro n hn hsrc i hi ⟨w, hw, hgate, hout⟩
  obtain ⟨⟨sn, k⟩, rfl, hp⟩ := g.mem_nodes.1 hn
  obtain ⟨pw, rfl, hpw⟩ := g.mem_nodes.1 hw
  -- a gate's stem, when a gate drives it, is driven from a lower level
  have hstem : ∀ {ln : LoweredNode}, ln ∈ g.low.nodes → ¬ ln.node.IsSource → ln.node.Reads i →
      g.rank i < 2 * ln.level + 1 := by
    intro ln hln hlsrc ⟨s, hs⟩
    obtain ⟨lw, hlw, hlout, hlgate⟩ := g.exists_low_gate (g.lt_stemCount_of_ins hln hs)
      ⟨pw, hpw, hout, hgate⟩
    obtain ⟨lw, hlw, hlout, hlgate, hlevel⟩ :=
      g.exists_lower_gate hac hln hlsrc ⟨s, hs⟩ ⟨lw, hlw, hlout, hlgate⟩
    rw [← hlout, g.rank_of_gate hone hlw hlgate]
    omega
  rcases Nat.lt_or_ge k g.low.nodes.length with hk | hk
  · obtain ⟨ln, hln⟩ : ∃ ln, g.low.nodes[k]? = some ln := ⟨_, List.getElem?_eq_getElem hk⟩
    have hmem := List.mem_of_getElem? hln
    obtain ⟨ins, hins, hslots⟩ := g.splitSpec.node k ln hln
    obtain rfl : sn = ln.withIns ins := Option.some.inj (hp.symm.trans hins)
    obtain ⟨s, hs⟩ := SimNode.mem_inputNets.1 hi
    have hs' : ins s = some i := hs
    show g.rank i < g.rank ln.node.out
    rw [g.rank_of_gate hone hmem hsrc]
    rcases hslots s with ⟨hkept, -⟩ | ⟨m, j, -, -, hbr, -, hlevel⟩
    · have := hstem hmem hsrc ⟨s, hkept ▸ hs'⟩
      omega
    · rw [hs', Option.some.injEq] at hbr
      rw [hbr, show g.rank (g.low.index.c2y.length + j) = _ from g.rank_of_branch j, hlevel]
      omega
  · obtain ⟨j, rfl⟩ := Nat.exists_eq_add_of_le hk
    obtain ⟨m, r, ln, s, hln, hm, -, hat, hlevel⟩ :=
      g.splitSpec.branch j (List.getElem?_eq_some_iff.1 hp).1
    obtain rfl : sn = branchBuf m _ _ := Option.some.inj (hp.symm.trans hat.buf)
    obtain rfl := branchBuf_reads.1 (SimNode.mem_inputNets.1 hi)
    have hrank : g.rank (branchBuf i (g.low.index.c2y.length + j) (ln.level - 1)).node.out =
        2 * ln.level + 1 := by
      rw [hlevel]
      exact g.rank_of_branch j
    rw [hrank]
    -- without flip-flops the consumer of the branch is a gate
    refine hstem (List.mem_of_getElem? hln) (fun hlsrc => ?_) ⟨s, hm⟩
    obtain ⟨n, hn, htype, -⟩ := g.exists_node_of_low (List.mem_of_getElem? hln)
    exact hcomb n hn (htype.trans (g.dff_of_isSource (List.mem_of_getElem? hln) hlsrc ⟨s, hm⟩).1)

end CachedGraph

end FaultFlow
