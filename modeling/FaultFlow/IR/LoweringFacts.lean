/-
# What the lowering does

On a graph whose nodes name nets of the graph only, `map_net` never adds a net
after the first loop (`mapNet_of_covers`), so the numbering of the nets is fixed
(`lower_index`), and every lowered node comes from a node of the graph
(`Lowered`): its level is the node's level, it writes one of the node's outputs,
and each slot it reads holds a net on one of the node's input pins.
-/

import FaultFlow.IR.GraphCompiler
import FaultFlow.IR.Levels

namespace FaultFlow

open Std (TreeMap)

namespace NetIndex

/-- `y2c` and `c2y` are inverse to each other. -/
def Valid (m : NetIndex) : Prop := ∀ (y : YosysNetID) (i : ℕ), m.y2c[y]? = some i ↔ m.c2y[i]? = some y

/-- Every net of a set has a number. -/
def Covers (m : NetIndex) (nets : YosysNetID → Prop) : Prop :=
  ∀ y, nets y → ∃ i, m.y2c[y]? = some i

theorem Valid.lt {m : NetIndex} (h : m.Valid) {y : YosysNetID} {i : ℕ} (hi : m.y2c[y]? = some i) :
    i < m.c2y.length :=
  (List.getElem?_eq_some_iff.1 ((h y i).1 hi)).1

/-- Two nets do not share a number. -/
theorem Valid.inj {m : NetIndex} (h : m.Valid) {y y' : YosysNetID} {i : ℕ}
    (hi : m.y2c[y]? = some i) (hi' : m.y2c[y']? = some i) : y = y' :=
  Option.some.inj (((h y i).1 hi).symm.trans ((h y' i).1 hi'))

end NetIndex

namespace GraphCompiler

variable {m : NetIndex} {y : YosysNetID} {i : ℕ} {ln : LoweredNode}

theorem mapNet_eq_of_some (h : m.y2c[y]? = some i) : mapNet m y = (i, m) := by
  rw [mapNet, h]

/-- `map_net` keeps the numbering valid, and afterwards the net has a number. -/
theorem mapNet_valid (h : m.Valid) (y : YosysNetID) :
    (mapNet m y).2.Valid ∧ (mapNet m y).2.y2c[y]? = some (mapNet m y).1 ∧
      ∀ (y' : YosysNetID) i, m.y2c[y']? = some i → (mapNet m y).2.y2c[y']? = some i := by
  cases hy : m.y2c[y]? with
  | some i =>
    rw [mapNet_eq_of_some hy]
    exact ⟨h, hy, fun _ _ h => h⟩
  | none =>
    have hnew : ∀ i, m.c2y[i]? ≠ some y := fun i hi => by
      rw [(h y i).2 hi] at hy
      cases hy
    rw [mapNet, hy]
    refine ⟨fun y' i => ?_, by simp, fun y' i hi => ?_⟩
    · simp only [TreeMap.getElem?_insert, Std.compare_eq_iff_eq, List.getElem?_append]
      by_cases hyy : y = y'
      · subst hyy
        rw [if_pos rfl]
        constructor
        · rintro ⟨⟩
          simp
        · intro hi
          split at hi
          · exact absurd hi (hnew i)
          · have := (List.getElem?_eq_some_iff.1 hi).1
            simp only [List.length_cons, List.length_nil] at this
            have hlen : m.c2y.length = i := by omega
            rw [hlen]
      · rw [if_neg hyy, h y' i]
        split
        · rfl
        · next hlt =>
          rw [List.getElem?_eq_none (by omega)]
          constructor
          · rintro ⟨⟩
          · intro hi
            have hmem := List.mem_of_getElem? hi
            exact absurd (List.mem_singleton.1 hmem).symm hyy
    · have hne : y ≠ y' := fun hyy => by
        rw [← hyy, hy] at hi
        cases hi
      simpa [TreeMap.getElem?_insert, hne] using hi

/-- The numbering of all nets. -/
theorem initialIndex_spec (ng : NormalizedGraph) :
    (initialIndex ng).Valid ∧ (initialIndex ng).Covers (· ∈ ng.nets) := by
  have key : ∀ (ys : List YosysNetID) (m : NetIndex), m.Valid →
      (ys.foldl (fun m id => (mapNet m id).2) m).Valid ∧
      ∀ y, (y ∈ ys ∨ ∃ i, m.y2c[y]? = some i) →
        ∃ i, (ys.foldl (fun m id => (mapNet m id).2) m).y2c[y]? = some i := by
    intro ys
    induction ys with
    | nil => exact fun m hm => ⟨hm, fun y hy => hy.resolve_left (by simp)⟩
    | cons z ys ih =>
      intro m hm
      obtain ⟨hv, hz, hmono⟩ := mapNet_valid hm z
      obtain ⟨hv', hc⟩ := ih _ hv
      refine ⟨hv', fun y hy => hc y ?_⟩
      rcases hy with hy | ⟨i, hi⟩
      · rcases List.mem_cons.1 hy with rfl | hy
        · exact .inr ⟨_, hz⟩
        · exact .inl hy
      · exact .inr ⟨i, hmono y i hi⟩
  obtain ⟨hv, hc⟩ := key ng.nets.keys {} fun y i => by simp
  exact ⟨hv, fun y hy => hc y (.inl (TreeMap.mem_keys.2 hy))⟩

/-- The slots of a node hold numbers of nets of a set. -/
def SlotsIn (m : NetIndex) (nets : YosysNetID → Prop) (ins : Fin 6 → Option CompiledNetIndex) :
    Prop :=
  ∀ s i, ins s = some i → ∃ y, nets y ∧ m.y2c[y]? = some i

theorem SlotsIn.update {nets : YosysNetID → Prop} {ins : Fin 6 → Option CompiledNetIndex}
    (h : SlotsIn m nets ins) (hy : nets y) (hi : m.y2c[y]? = some i) (s : Fin 6) :
    SlotsIn m nets (Function.update ins s (some i)) := by
  intro t j hj
  by_cases ht : t = s
  · subst ht
    rw [Function.update_self] at hj
    exact ⟨y, hy, hi.trans hj⟩
  · rw [Function.update_of_ne ht] at hj
    exact h t j hj

/-- Wiring a gate keeps a numbering that covers its pins. -/
theorem wireInputs_spec (gt : GateType) {pins : TreeMap String YosysNetID}
    (hcov : m.Covers fun y => ∃ pin : String, pins[pin]? = some y) :
    (wireInputs gt pins m).2 = m ∧
      SlotsIn m (fun y => ∃ pin : String, pins[pin]? = some y) (wireInputs gt pins m).1 := by
  refine Lib.foldl_invariant (fun st : (Fin 6 → Option CompiledNetIndex) × NetIndex =>
    st.2 = m ∧ SlotsIn m (fun y => ∃ pin : String, pins[pin]? = some y) st.1)
    ⟨rfl, fun s i hi => by cases hi⟩ ?_
  rintro w - ⟨ins, m'⟩ ⟨rfl, hins⟩
  unfold wire
  split
  · next y hy =>
    obtain ⟨i, hi⟩ := hcov y ⟨w.1, hy⟩
    simp only [mapNet_eq_of_some hi]
    exact ⟨trivial, hins.update ⟨w.1, hy⟩ hi w.2⟩
  · exact ⟨rfl, hins⟩

/-- Wiring a flip-flop keeps a numbering that covers its nets. -/
theorem wireFf_spec {cfg : FFConfig} (hcov : m.Covers (· ∈ NormalizedGraph.ffNets cfg)) :
    ((ffWiring cfg).foldl wireFf (fun _ => none, m)).2 = m ∧
      SlotsIn m (· ∈ NormalizedGraph.ffNets cfg)
        ((ffWiring cfg).foldl wireFf (fun _ => none, m)).1 := by
  have hsub : ∀ w ∈ ffWiring cfg, w.1 ∈ NormalizedGraph.ffNets cfg := by
    intro w hw
    unfold ffWiring at hw
    unfold NormalizedGraph.ffNets
    split_ifs at hw ⊢ <;> simp at hw ⊢ <;> grind
  refine Lib.foldl_invariant (fun st : (Fin 6 → Option CompiledNetIndex) × NetIndex =>
    st.2 = m ∧ SlotsIn m (· ∈ NormalizedGraph.ffNets cfg) st.1)
    ⟨rfl, fun s i hi => by cases hi⟩ ?_
  rintro w hw ⟨ins, m'⟩ ⟨rfl, hins⟩
  obtain ⟨i, hi⟩ := hcov w.1 (hsub w hw)
  simp only [wireFf, mapNet_eq_of_some hi]
  exact ⟨trivial, hins.update (hsub w hw) hi w.2⟩

/-- A net is on an input pin of the node. -/
def OnInput (node : NormNode) (y : YosysNetID) : Prop :=
  ∃ pin : String, node.inputPins[pin]? = some y

/-- **A lowered node and the node it comes from.** -/
inductive Lowered (m : NetIndex) (node : NormNode) (ln : LoweredNode) : Prop
  | ff (type : node.type = .FF) (owner : ln.owner = some node.id) (level : ln.level = node.level)
      (dff : ln.node.type = .DFF) (out : m.y2c[node.ffConfig.outputNet]? = some ln.node.out)
      (slots : SlotsIn m (· ∈ NormalizedGraph.ffNets node.ffConfig) ln.node.ins)
  | gate (pin : String) (net : YosysNetID) (type : node.type = .GATE ∨ node.type = .CONST)
      (owner : ln.owner = some node.id) (level : ln.level = node.level)
      (output : node.outputPins[pin]? = some net) (out : m.y2c[net]? = some ln.node.out)
      (gate : ln.node.type = outputType node.gateType pin)
      (slots : SlotsIn m (OnInput node) ln.node.ins)

variable {node : NormNode}

theorem Lowered.owner_eq (h : Lowered m node ln) : ln.owner = some node.id := by
  cases h with
  | ff => assumption
  | gate => assumption

theorem Lowered.level_eq (h : Lowered m node ln) : ln.level = node.level := by
  cases h with
  | ff => assumption
  | gate => assumption

/-- The state of the lowering after the nodes `visited`. -/
structure LowerInv (m : NetIndex) (visited : List NormNode) (st : Lowering) : Prop where
  index : st.index = m
  sound : ∀ ln ∈ st.nodes, ∃ node ∈ visited, Lowered m node ln
  ff : ∀ node ∈ visited, node.type = .FF → ∃ ln ∈ st.nodes, Lowered m node ln
  gate : ∀ node ∈ visited, (node.type = .GATE ∨ node.type = .CONST) → ∀ (pin : String) net,
    node.outputPins[pin]? = some net → ∃ ln ∈ st.nodes, Lowered m node ln ∧
      m.y2c[net]? = some ln.node.out ∧ ln.node.type = outputType node.gateType pin

variable {visited : List NormNode} {st st' : Lowering}

/-- More lowered nodes, all from the node now visited. -/
theorem LowerInv.append (h : LowerInv m visited st) (hindex : st'.index = m)
    (lns : List LoweredNode) (hnodes : st'.nodes = st.nodes ++ lns)
    (hlns : ∀ ln ∈ lns, Lowered m node ln)
    (hff : node.type = .FF → ∃ ln ∈ lns, Lowered m node ln)
    (hgate : (node.type = .GATE ∨ node.type = .CONST) → ∀ (pin : String) net,
      node.outputPins[pin]? = some net → ∃ ln ∈ lns, Lowered m node ln ∧
        m.y2c[net]? = some ln.node.out ∧ ln.node.type = outputType node.gateType pin) :
    LowerInv m (visited ++ [node]) st' := by
  refine ⟨hindex, fun ln hln => ?_, fun n hn ht => ?_, fun n hn ht pin net hp => ?_⟩
  · rw [hnodes] at hln
    rcases List.mem_append.1 hln with hln | hln
    · obtain ⟨n, hn, hl⟩ := h.sound ln hln
      exact ⟨n, List.mem_append_left _ hn, hl⟩
    · exact ⟨node, by simp, hlns ln hln⟩
  · rw [hnodes]
    rcases List.mem_append.1 hn with hn | hn
    · obtain ⟨ln, hln, hl⟩ := h.ff n hn ht
      exact ⟨ln, List.mem_append_left _ hln, hl⟩
    · obtain rfl := List.mem_singleton.1 hn
      obtain ⟨ln, hln, hl⟩ := hff ht
      exact ⟨ln, List.mem_append_right _ hln, hl⟩
  · rw [hnodes]
    rcases List.mem_append.1 hn with hn | hn
    · obtain ⟨ln, hln, hl⟩ := h.gate n hn ht pin net hp
      exact ⟨ln, List.mem_append_left _ hln, hl⟩
    · obtain rfl := List.mem_singleton.1 hn
      obtain ⟨ln, hln, hl⟩ := hgate ht pin net hp
      exact ⟨ln, List.mem_append_right _ hln, hl⟩

/-- The outputs of one gate. -/
theorem lowerOutputs_spec (ht : node.type = .GATE ∨ node.type = .CONST)
    (hin : m.Covers (OnInput node))
    (hout : m.Covers fun y => ∃ pin : String, node.outputPins[pin]? = some y) (st : Lowering)
    (hst : st.index = m) (ps : List (String × YosysNetID))
    (hps : ∀ p ∈ ps, node.outputPins[p.1]? = some p.2) :
    ∃ lns : List LoweredNode, (ps.foldl (lowerOutput node) st).index = m ∧
      (ps.foldl (lowerOutput node) st).nodes = st.nodes ++ lns ∧
      (∀ ln ∈ lns, Lowered m node ln) ∧
      ∀ p ∈ ps, ∃ ln ∈ lns, Lowered m node ln ∧ m.y2c[p.2]? = some ln.node.out ∧
        ln.node.type = outputType node.gateType p.1 := by
  induction ps generalizing st with
  | nil => exact ⟨[], hst, by simp, by simp, by simp⟩
  | cons p ps ih =>
    obtain ⟨hidx, hslots⟩ := wireInputs_spec (outputType node.gateType p.1) hin
    obtain ⟨i, hi⟩ := hout p.2 ⟨p.1, hps p (by simp)⟩
    let ln : LoweredNode :=
      { node := { type := outputType node.gateType p.1,
                  ins := (wireInputs (outputType node.gateType p.1) node.inputPins m).1, out := i }
        level := node.level, owner := some node.id }
    have hstep : lowerOutput node st p = { st with index := m, nodes := st.nodes ++ [ln] } := by
      simp only [lowerOutput, hst, hidx, mapNet_eq_of_some hi]
      rfl
    have hln : Lowered m node ln :=
      .gate p.1 p.2 ht rfl rfl (hps p (by simp)) hi rfl hslots
    obtain ⟨lns, h1, h2, h3, h4⟩ := ih (lowerOutput node st p) (by rw [hstep])
      fun q hq => hps q (List.mem_cons_of_mem _ hq)
    refine ⟨ln :: lns, h1, ?_, ?_, ?_⟩
    · rw [List.foldl_cons, h2, hstep]
      simp
    · intro l hl
      rcases List.mem_cons.1 hl with rfl | hl
      · exact hln
      · exact h3 l hl
    · intro q hq
      rcases List.mem_cons.1 hq with rfl | hq
      · exact ⟨ln, by simp, hln, hi, rfl⟩
      · obtain ⟨l, hl, hl'⟩ := h4 q hq
        exact ⟨l, List.mem_cons_of_mem _ hl, hl'⟩

variable {ng : NormalizedGraph}

/-- One node of the ordered graph. -/
theorem LowerInv.step (hng : ng.Levelized) (hcov : m.Covers (· ∈ ng.nets)) (hnode : node ∈ ng.nodes)
    (h : LowerInv m visited st) (hok : lowerNode st node = .ok st') :
    LowerInv m (visited ++ [node]) st' := by
  have hclosed := hng.inv.closed node hnode
  have hgates : ∀ ht : node.type = .GATE ∨ node.type = .CONST,
      st' = node.outputPins.toList.foldl (lowerOutput node) st → LowerInv m (visited ++ [node]) st' := by
    intro ht hst'
    have hpins : ∀ p ∈ node.outputPins.toList, node.outputPins[p.1]? = some p.2 :=
      fun p hp => TreeMap.mem_toList_iff_getElem?_eq_some.1 hp
    obtain ⟨lns, h1, h2, h3, h4⟩ := lowerOutputs_spec ht
      (fun y ⟨pin, hy⟩ => hcov y (hclosed.inputs pin y hy))
      (fun y ⟨pin, hy⟩ => hcov y (hclosed.outputs pin y hy)) st h.index _ hpins
    subst hst'
    refine h.append h1 lns h2 h3 (fun hff => ?_) fun _ pin net hp =>
      h4 (pin, net) (TreeMap.mem_toList_iff_getElem?_eq_some.2 hp)
    rw [hff] at ht
    rcases ht with ht | ht <;> cases ht
  have hskip : node.type ≠ .FF → ¬ (node.type = .GATE ∨ node.type = .CONST) → st' = st →
      LowerInv m (visited ++ [node]) st' := by
    rintro hff hgate rfl
    exact h.append h.index [] (by simp) (by simp) (fun ht => absurd ht hff)
      fun ht => absurd ht hgate
  unfold lowerNode at hok
  cases ht : node.type with
  | FF =>
    rw [ht] at hok
    simp only [lowerFf] at hok
    split at hok
    · cases hok
    · cases hok
      have hffcov : m.Covers (· ∈ NormalizedGraph.ffNets node.ffConfig) :=
        fun y hy => hcov y (hclosed.ff ht y hy)
      obtain ⟨hidx, hslots⟩ := wireFf_spec hffcov
      obtain ⟨i, hi⟩ := hffcov node.ffConfig.outputNet (by simp [NormalizedGraph.ffNets])
      have hlevel := hng.level_eq_zero hnode (.inl ht)
      let ln : LoweredNode :=
        { node := { type := .DFF, ins := ((ffWiring node.ffConfig).foldl wireFf (fun _ => none, m)).1,
                    out := i, ffCfg := st.ffConfigs.length }
          level := 0, owner := some node.id }
      have hln : Lowered m node ln := .ff ht rfl hlevel.symm rfl hi hslots
      refine h.append (by simp [h.index, hidx, mapNet_eq_of_some hi]) [ln]
        (by simp [h.index, hidx, mapNet_eq_of_some hi, ln]) (fun l hl => ?_)
        (fun _ => ⟨ln, by simp, hln⟩) fun hg => ?_
      · rwa [List.mem_singleton.1 hl]
      · rw [ht] at hg
        rcases hg with hg | hg <;> cases hg
  | GATE =>
    rw [ht] at hok
    exact hgates (.inl ht) (Except.ok.inj hok).symm
  | CONST =>
    rw [ht] at hok
    exact hgates (.inr ht) (Except.ok.inj hok).symm
  | LATCH =>
    rw [ht] at hok
    exact hskip (by simp [ht]) (by simp [ht]) (Except.ok.inj hok).symm
  | TBUF =>
    rw [ht] at hok
    exact hskip (by simp [ht]) (by simp [ht]) (Except.ok.inj hok).symm
  | ICG =>
    rw [ht] at hok
    exact hskip (by simp [ht]) (by simp [ht]) (Except.ok.inj hok).symm

theorem mem_ordered :
    node ∈ ordered ng ↔ node ∈ ng.nodes :=
  (List.perm_insertionSort _ _).mem_iff

variable {low : Lowering}

/-- **The lowering of a whole graph.** -/
theorem lower_spec (hng : ng.Levelized) (hok : lower ng = .ok low) :
    LowerInv (initialIndex ng) (ordered ng) low := by
  obtain ⟨-, hcov⟩ := initialIndex_spec ng
  refine Lib.foldlM_visited (LowerInv (initialIndex ng)) hok ⟨rfl, by simp, by simp, by simp⟩ ?_
  intro pre node post c c' hl hc hstep
  refine hc.step hng hcov (mem_ordered.1 ?_) hstep
  rw [hl]
  simp

/-- A flip-flop configuration comes with a `DFF` node. -/
theorem ffConfigs_lower (hok : lower ng = .ok low) :
    low.ffConfigs = [] ∨ ∃ ln ∈ low.nodes, ln.node.type = .DFF := by
  have houtput : ∀ (node : NormNode) (ps : List (String × YosysNetID)) (st : Lowering),
      (st.ffConfigs = [] ∨ ∃ ln ∈ st.nodes, ln.node.type = .DFF) →
      (ps.foldl (lowerOutput node) st).ffConfigs = [] ∨
        ∃ ln ∈ (ps.foldl (lowerOutput node) st).nodes, ln.node.type = .DFF := by
    intro node ps st hst
    refine Lib.foldl_invariant
      (fun st : Lowering => st.ffConfigs = [] ∨ ∃ ln ∈ st.nodes, ln.node.type = .DFF) hst ?_
    rintro p - st (hnil | ⟨ln, hln, htype⟩)
    · exact .inl hnil
    · exact .inr ⟨ln, List.mem_append_left _ hln, htype⟩
  refine Lib.foldlM_invariant
    (fun st : Lowering => st.ffConfigs = [] ∨ ∃ ln ∈ st.nodes, ln.node.type = .DFF) hok (.inl rfl) ?_
  intro node _ st st' hst hstep
  unfold lowerNode at hstep
  split at hstep
  · unfold lowerFf at hstep
    split at hstep
    · cases hstep
    · cases hstep
      exact .inr ⟨_, List.mem_append_right _ (List.mem_singleton_self _), rfl⟩
  · cases hstep
    exact houtput node _ st hst
  · cases hstep
    exact houtput node _ st hst
  · cases hstep
    exact hst

/-- A flip-flop of the netlist comes with a configuration. -/
theorem ffConfigs_ne_nil (hok : lower ng = .ok low) (hnode : node ∈ ng.nodes)
    (hff : node.type = .FF) : low.ffConfigs ≠ [] := by
  have houtput : ∀ (node : NormNode) (ps : List (String × YosysNetID)) (st : Lowering),
      (ps.foldl (lowerOutput node) st).ffConfigs = st.ffConfigs := by
    intro node ps st
    exact Lib.foldl_invariant (fun st' : Lowering => st'.ffConfigs = st.ffConfigs) rfl
      fun _ _ _ h => h
  have hinv := Lib.foldlM_visited (fun visited (st : Lowering) =>
    (∃ node ∈ visited, node.type = .FF) → st.ffConfigs ≠ []) hok (by simp) ?_
  · exact hinv ⟨node, mem_ordered.2 hnode, hff⟩
  intro pre n post st st' _ hst hstep hex
  have hkept : n.type ≠ .FF → st'.ffConfigs = st.ffConfigs → st'.ffConfigs ≠ [] := by
    rintro hne heq
    obtain ⟨m, hm, htype⟩ := hex
    rcases List.mem_append.1 hm with hm | hm
    · exact heq ▸ hst ⟨m, hm, htype⟩
    · exact absurd (List.mem_singleton.1 hm ▸ htype) hne
  unfold lowerNode at hstep
  split at hstep
  · unfold lowerFf at hstep
    split at hstep
    · cases hstep
    · cases hstep
      simp
  · rename_i ht
    cases hstep
    exact hkept (by simp [ht]) (houtput n _ st)
  · rename_i ht
    cases hstep
    exact hkept (by simp [ht]) (houtput n _ st)
  · rename_i h1 h2 h3
    cases hstep
    exact hkept h1 rfl

end GraphCompiler

end FaultFlow
