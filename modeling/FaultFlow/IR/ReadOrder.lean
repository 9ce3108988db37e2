/-
# Which nets are read after they are written

`GatesInOrder`: no gate reads what a gate writes before one has written it, so
that a pass depends on no stale gate output.  `ReadsInOrder` says it of one net,
with a flip-flop's output written before the pass.  Both follow from a
topological order, and the second is all that a fault's net needs.

The nets that the passes name by Yosys number (inputs, observation points) are
stems, and `compiled_to_yosys` and `yosys_to_compiled` are inverse there
(`yosysToCompiled_yosysOf`).
-/

import FaultFlow.IR.Topology

namespace FaultFlow

open GraphCompiler

namespace CompiledSimGraph

variable (cg : CompiledSimGraph)

/-- Some gate drives net `i`. -/
def GateDriven (i : CompiledNetIndex) : Prop := ∃ w ∈ cg.nodes, ¬ w.IsSource ∧ w.out = i

instance (cg : CompiledSimGraph) (i : CompiledNetIndex) : Decidable (cg.GateDriven i) :=
  inferInstanceAs (Decidable (∃ w ∈ cg.nodes, ¬ w.IsSource ∧ w.out = i))

/-- A gate reads what gates drive only after one has driven it. -/
def GatesInOrder : Prop :=
  ∀ p ∈ cg.nodes.zipIdx, ¬ p.1.IsSource → ∀ i ∈ p.1.inputNets, cg.GateDriven i →
    ∃ w ∈ cg.nodes.take p.2, ¬ w.IsSource ∧ w.out = i

/-- Net `i` is a flip-flop's, or a gate reads it only after one has driven it. -/
def ReadsInOrder (i : CompiledNetIndex) : Prop :=
  ∀ p ∈ cg.nodes.zipIdx, ¬ p.1.IsSource → i ∈ p.1.inputNets →
    (∃ w ∈ cg.nodes, w.type = .DFF ∧ w.out = i) ∨
      ∃ w ∈ cg.nodes.take p.2, ¬ w.IsSource ∧ w.out = i

instance (cg : CompiledSimGraph) (i : CompiledNetIndex) : Decidable (cg.ReadsInOrder i) :=
  inferInstanceAs (Decidable (∀ p ∈ cg.nodes.zipIdx, ¬ p.1.IsSource → i ∈ p.1.inputNets →
    (∃ w ∈ cg.nodes, w.type = .DFF ∧ w.out = i) ∨
      ∃ w ∈ cg.nodes.take p.2, ¬ w.IsSource ∧ w.out = i))

/-- No gate drives the net of an input or of a flip-flop. -/
def SourcesAlone : Prop := ∀ w ∈ cg.nodes, w.IsSource → ¬ cg.GateDriven w.out

instance (cg : CompiledSimGraph) : Decidable cg.SourcesAlone :=
  inferInstanceAs (Decidable (∀ w ∈ cg.nodes, w.IsSource → ¬ cg.GateDriven w.out))

variable {cg}

theorem Topological.gatesInOrder (h : cg.Topological) (halone : cg.SourcesAlone) :
    cg.GatesInOrder := by
  intro p hp hsrc i hi hdriven
  have hgate : ∀ w ∈ cg.nodes, w.out = i → ¬ w.IsSource := by
    rintro w hw rfl hs
    exact halone w hw hs hdriven
  rcases h p hp hsrc i hi with hun | ⟨w, hw, hout, hs⟩ | ⟨w, hw, hout⟩
  · obtain ⟨w, hw, -, hout⟩ := hdriven
    exact absurd ⟨w, hw, hout⟩ hun
  · exact absurd hs (hgate w hw hout)
  · exact ⟨w, hw, hgate w (List.mem_of_mem_take hw) hout, hout⟩

/-- In a topological order a driven net is an input's, or is read in order. -/
theorem Topological.readsInOrder (h : cg.Topological) {i : CompiledNetIndex} (hd : cg.Driven i) :
    (∃ w ∈ cg.nodes, w.type = .INPUT ∧ w.out = i) ∨ cg.ReadsInOrder i := by
  by_cases hin : ∃ w ∈ cg.nodes, w.type = .INPUT ∧ w.out = i
  · exact .inl hin
  · refine .inr fun p hp hsrc hi => ?_
    have hdff : ∀ w ∈ cg.nodes, w.out = i → w.IsSource → w.type = .DFF := by
      rintro w hw hout (hs | hs)
      · exact absurd ⟨w, hw, hs, hout⟩ hin
      · exact hs
    rcases h p hp hsrc i hi with hun | ⟨w, hw, hout, hs⟩ | ⟨w, hw, hout⟩
    · exact absurd hd hun
    · exact .inl ⟨w, hw, hdff w hw hout hs, hout⟩
    · by_cases hs : w.IsSource
      · have hw' := List.mem_of_mem_take hw
        exact .inl ⟨w, hw', hdff w hw' hout hs, hout⟩
      · exact .inr ⟨w, hw, hs, hout⟩

end CompiledSimGraph

namespace CachedGraph

variable (g : CachedGraph)

/-- The compiled node of a lowered node. -/
theorem exists_node_of_low {ln : LoweredNode} (hln : ln ∈ g.low.nodes) :
    ∃ n ∈ g.cg.nodes, n.type = ln.node.type ∧ n.out = ln.node.out := by
  obtain ⟨k, hk⟩ := List.getElem?_of_mem hln
  obtain ⟨ins, hins⟩ := g.exists_split hk
  exact ⟨_, g.mem_nodes.2 ⟨(_, k), rfl, hins⟩, rfl, rfl⟩

/-- **Without flip-flops the order serves every gate**, once the branches are
placed right. -/
theorem gatesInOrder_of_combinational (hac : g.ng.Acyclic) (hcomb : g.cg.Combinational)
    (hforks : ForksPlaced g.low.nodes) : g.cg.GatesInOrder := by
  rintro ⟨n, k⟩ hn hsrc i hi ⟨w, hw, hgate, hout⟩
  obtain ⟨q, hk, rfl⟩ := g.getElem?_nodes.1 (List.mem_zipIdx_iff_getElem?.1 hn)
  obtain ⟨p, rfl, hp⟩ := g.mem_nodes.1 hw
  have hgates : ∀ ln ∈ g.low.nodes, ¬ ln.node.IsSource → ∀ m, ln.node.Reads m →
      Wide g.low.nodes m → 0 < ln.level := by
    intro ln hln hsrc m hm hwide
    have := hforks ln hln m (SimNode.mem_inputNets.2 hm) hwide
    rwa [ForkPlaced, if_neg hsrc] at this
  have hflops : ∀ ln ∈ g.low.nodes, ln.node.IsSource → ln.node.Reads i → Wide g.low.nodes i →
      ∃ lw ∈ g.low.nodes, lw.node.out = i ∧ ¬ lw.node.IsSource ∧ lw.level = 0 := by
    intro ln hln hsource hreads _
    obtain ⟨n, hn, htype, -⟩ := g.exists_node_of_low hln
    exact absurd (htype.trans (g.dff_of_isSource hln hsource hreads).1) (hcomb n hn)
  obtain ⟨p', hp', hout', hgate', hb⟩ := g.exists_gate_before hac hgates hflops
    (mem_sorted.1 (List.mem_of_getElem? hk)) hsrc (SimNode.mem_inputNets.1 hi) ⟨p, hp, hout, hgate⟩
  exact ⟨_, (g.mem_take_nodes hk).2 ⟨p', rfl, hp', hb⟩, hgate', hout'⟩

/-! ## Nets named by Yosys number -/

/-- Net `i` is the compiled net of a Yosys net. -/
def IsStem (i : CompiledNetIndex) : Prop := ∃ y : YosysNetID, g.cg.yosysToCompiled[y]? = some i

theorem yosysToCompiled_eq : g.cg.yosysToCompiled = g.low.index.y2c := by
  rw [g.cg_eq]
  rfl

theorem compiledToYosys_eq : g.cg.compiledToYosys = g.split.c2y := by
  rw [g.cg_eq]
  rfl

theorem yosysOf_eq {y : YosysNetID} {i : ℕ} (hy : g.cg.yosysToCompiled[y]? = some i) :
    g.cg.yosysOf i = y := by
  rw [yosysToCompiled_eq] at hy
  have hc2y : g.split.c2y[i]? = some y := by
    rw [g.splitSpec.stem i (g.index_valid.lt hy)]
    exact (g.index_valid y i).1 hy
  rw [CompiledSimGraph.yosysOf, compiledToYosys_eq, List.getD_eq_getElem?_getD, hc2y]
  rfl

/-- **The two numberings are inverse on stems.** -/
theorem yosysToCompiled_yosysOf {i : ℕ} (h : g.IsStem i) :
    g.cg.yosysToCompiled[g.cg.yosysOf i]? = some i := by
  obtain ⟨y, hy⟩ := h
  rw [g.yosysOf_eq hy, hy]

theorem mem_foldl_pushUnique (xs v : List CompiledNetIndex) (i : CompiledNetIndex) :
    i ∈ xs.foldl pushUnique v ↔ i ∈ v ∨ i ∈ xs := by
  induction xs generalizing v with
  | nil => simp
  | cons x xs ih =>
    rw [List.foldl_cons, ih, pushUnique]
    split
    · rename_i hx
      rw [List.mem_cons]
      constructor
      · rintro (h | h)
        · exact .inl h
        · exact .inr (.inr h)
      · rintro (h | rfl | h)
        · exact .inl h
        · exact .inl hx
        · exact .inr h
    · rw [List.mem_append, List.mem_singleton, List.mem_cons, or_assoc]

variable {i : CompiledNetIndex}

/-- The observation points are stems. -/
theorem isStem_of_observable (hi : i ∈ g.cg.observable) : g.IsStem i := by
  rw [IsStem, yosysToCompiled_eq]
  rw [g.cg_eq] at hi
  rcases (mem_foldl_pushUnique _ _ i).1 hi with h | h
  all_goals
    obtain ⟨y, -, hy⟩ := List.mem_filterMap.1 h
    exact ⟨y, hy⟩

theorem mem_foldl_pushPseudoPi (xs : List CompiledNetIndex)
    (v : List CompiledNetIndex × List CompiledNetIndex) (i : CompiledNetIndex) :
    i ∈ (xs.foldl pushPseudoPi v).1 ↔ i ∈ v.1 ∨ i ∈ xs := by
  have hfst : (xs.foldl pushPseudoPi v).1 = xs.foldl pushUnique v.1 := by
    induction xs generalizing v with
    | nil => rfl
    | cons x xs ih =>
      rw [List.foldl_cons, List.foldl_cons, ih, pushPseudoPi, pushUnique]
      split <;> rfl
  rw [hfst, mem_foldl_pushUnique]

/-- The inputs are the compiled nets of the primary and pseudo-inputs. -/
theorem mem_piNets : i ∈ g.cg.piNets ↔
    ∃ y : YosysNetID, (y ∈ g.ng.PIs ∨ y ∈ g.ng.pseudoInputs) ∧ g.low.index.y2c[y]? = some i := by
  rw [g.cg_eq]
  refine (mem_foldl_pushPseudoPi _ _ i).trans ?_
  simp only [List.mem_filterMap, Std.TreeSet.mem_toList]
  constructor
  · rintro (⟨y, hy, hyi⟩ | ⟨y, hy, hyi⟩)
    · exact ⟨y, .inl hy, hyi⟩
    · exact ⟨y, .inr hy, hyi⟩
  · rintro ⟨y, hy | hy, hyi⟩
    · exact .inl ⟨y, hy, hyi⟩
    · exact .inr ⟨y, hy, hyi⟩

/-- The net of an `INPUT` node is an input. -/
theorem mem_piNets_of_input {n : SimNode} (hn : n ∈ g.cg.nodes) (htype : n.type = .INPUT) :
    n.out ∈ g.cg.piNets := by
  obtain ⟨p, rfl, hp⟩ := g.mem_nodes.1 hn
  rcases g.split_cases hp with ⟨ln, ins, hln, heq⟩ | ⟨j, stem, level, -, heq⟩
  · rw [heq] at htype ⊢
    obtain ⟨node, hnode, h⟩ := g.exists_lowered (List.mem_of_getElem? hln)
    cases h with
    | ff _ _ _ dff _ _ => exact absurd (dff.symm.trans htype) (by simp)
    | gate pin net _ _ _ output out gate _ =>
      rcases isSource_outputType (.inl (gate.symm.trans htype)) with hgate | hgate
      · exact g.mem_piNets.2
          ⟨net, (g.levelized.inv.input node hnode hgate).2.2 pin net output, out⟩
      · rw [hgate] at gate
        exact absurd (gate.symm.trans htype) (by simp [outputType])
  · rw [heq] at htype
    cases htype

/-- The inputs are those of the ports and the pseudo-inputs. -/
theorem mem_piNets_iff : i ∈ g.cg.piNets ↔
    (∃ y : YosysNetID, y ∈ g.ng.PIs ∧ g.cg.yosysToCompiled[y]? = some i) ∨
      i ∈ g.cg.pseudoPiNets := by
  have hinv : ∀ (pis xs : List CompiledNetIndex) (i : CompiledNetIndex),
      i ∈ (xs.foldl pushPseudoPi (pis, [])).1 ↔
        i ∈ pis ∨ i ∈ (xs.foldl pushPseudoPi (pis, [])).2 := by
    intro pis xs i
    refine Lib.foldl_invariant
      (fun v : List CompiledNetIndex × List CompiledNetIndex => i ∈ v.1 ↔ i ∈ pis ∨ i ∈ v.2)
      (by simp) ?_
    rintro x - v hv
    unfold pushPseudoPi
    split
    · exact hv
    · simp only [List.mem_append, hv, or_assoc]
  rw [g.cg_eq]
  refine (hinv _ _ i).trans (or_congr_left ?_)
  simp only [List.mem_filterMap, Std.TreeSet.mem_toList]
  rfl

/-- Without flip-flops a driven net that no gate drives is an input. -/
theorem mem_piNets_of_driven (hcomb : g.cg.Combinational) (hdriven : g.cg.Driven i)
    (hgate : ¬ g.cg.GateDriven i) : i ∈ g.cg.piNets := by
  obtain ⟨n, hn, rfl⟩ := hdriven
  by_cases hsrc : n.IsSource
  · exact g.mem_piNets_of_input hn (hsrc.resolve_right (hcomb n hn))
  · exact absurd ⟨n, hn, hsrc, rfl⟩ hgate

theorem isStem_of_piNets (hi : i ∈ g.cg.piNets) : g.IsStem i := by
  obtain ⟨y, -, hy⟩ := g.mem_piNets.1 hi
  exact ⟨y, by rwa [yosysToCompiled_eq]⟩

/-- Without a `DFF` node there is no flip-flop configuration. -/
theorem ffConfigs_eq_nil (hcomb : g.cg.Combinational) : g.cg.ffConfigs = [] := by
  rw [g.cg_eq]
  refine (ffConfigs_lower g.lower_eq).resolve_right ?_
  rintro ⟨ln, hln, htype⟩
  obtain ⟨n, hn, hntype, -⟩ := g.exists_node_of_low hln
  exact hcomb n hn (hntype.trans htype)

/-- Without a flip-flop configuration there is no `DFF` node. -/
theorem combinational_of_ffConfigs (h : g.cg.ffConfigs = []) : g.cg.Combinational := by
  intro n hn htype
  rw [g.cg_eq] at h
  obtain ⟨p, rfl, hp⟩ := g.mem_nodes.1 hn
  rcases g.split_cases hp with ⟨ln, ins, hln, heq⟩ | ⟨j, stem, level, -, heq⟩
  · obtain ⟨node, hnode, hlow⟩ := g.exists_lowered (List.mem_of_getElem? hln)
    rw [heq] at htype
    cases hlow with
    | ff type => exact ffConfigs_ne_nil g.lower_eq hnode type h
    | gate pin net type _ _ _ _ gate =>
      have hdff : outputType node.gateType pin = .DFF := gate.symm.trans htype
      rcases isSource_outputType (.inr hdff) with hgate | hgate
      · rw [hgate] at hdff
        cases hdff
      · have hff := (g.levelized.inv.dff node hnode).2 hgate
        rw [hff] at type
        rcases type with ht | ht <;> cases ht
  · rw [heq] at htype
    cases htype

/-- **In a topological order a fault's net is an input, or is read in order.** -/
theorem piNets_or_readsInOrder (h : g.cg.Topological) (hd : g.cg.Driven i) :
    i ∈ g.cg.piNets ∨ g.cg.ReadsInOrder i := by
  rcases h.readsInOrder hd with ⟨w, hw, htype, rfl⟩ | hord
  · exact .inl (g.mem_piNets_of_input hw htype)
  · exact .inr hord

/-- `ff_nodes` lists the flip-flops. -/
theorem mem_ffs {n : SimNode} : n ∈ g.cg.ffs ↔ n ∈ g.cg.nodes ∧ n.type = .DFF := by
  have hff : g.cg.ffNodes =
      (List.range g.cg.nodes.length).filter fun i => (g.cg.nodes[i]?).any fun n => n.type = .DFF := by
    rw [g.cg_eq]
    rfl
  rw [CompiledSimGraph.ffs, hff, List.mem_filterMap]
  constructor
  · rintro ⟨k, hk, hn⟩
    have hany := (List.mem_filter.1 hk).2
    rw [hn] at hany
    exact ⟨List.mem_of_getElem? hn, by simpa using hany⟩
  · rintro ⟨hn, htype⟩
    obtain ⟨k, hk⟩ := List.getElem?_of_mem hn
    refine ⟨k, List.mem_filter.2 ⟨List.mem_range.2 (List.getElem?_eq_some_iff.1 hk).1, ?_⟩, hk⟩
    simp [hk, htype]

end CachedGraph

end FaultFlow
