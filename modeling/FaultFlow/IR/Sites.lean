/-
# Fault sites

After `split_fanout_branches` a net with several consumers is read through branches,
and `canonical_site_key` names every net: a stem by its number, a branch by its stem
and the consumer pin.  The branches are grouped by a pin that is looked up from the
net (`pin_for_compiled_input`), so two pins of one instance on one net share a
branch; everything else has a branch of its own (`pinSites`).
-/

import FaultFlow.IR.Drivers
import FaultFlow.IR.Wiring
import FaultFlow.Lib.Keys

namespace FaultFlow

open Std (TreeMap)

/-- `canonical_site_key`. -/
def canonicalSiteKey (cg : CompiledSimGraph) (cidx : CompiledNetIndex) : Except FlowError String :=
  if cg.netCount ≤ cidx then .error (.runtimeError "compiled net index out of range")
  else
    let site := cg.netSites cidx
    if site.kind = .BRANCH then
      if site.consumerInstance = "" ∨ site.inputPin = "" then
        .error (.runtimeError "branch site missing consumer or pin")
      else .ok ("net:" ++ toString (cg.yosysOf cidx) ++ ":branch:" ++ site.consumerInstance ++ ":" ++
        site.inputPin)
    else .ok ("net:" ++ toString (cg.yosysOf cidx) ++ ":stem")

namespace GraphCompiler

/-! ## The keys of the groups -/

section Keys

variable (site : FanoutEdge → Option (NormNode × String))

/-- What the key of a group says of its edges and of the site it names. -/
structure Keyed (g : BranchGroup) : Prop where
  edges : ∀ e ∈ g.edges, (site e).map (fun n => (n.1.id, n.2)) = g.key
  named : ∀ k, g.key = some k → g.inputPin = k.2 ∧
    ∃ e n, site e = some n ∧ n.1.id = k.1 ∧ g.instanceName = n.1.instanceName

/-- The groups so far: one for each key. -/
structure KeyInv (groups : List BranchGroup) : Prop where
  keyed : ∀ g ∈ groups, Keyed site g
  distinct : groups.Pairwise fun a b => a.key = none ∨ a.key ≠ b.key

variable {site} {groups : List BranchGroup}

/-- An edge opens a group. -/
theorem KeyInv.opened (h : KeyInv site groups) {g : BranchGroup} (hg : Keyed site g)
    (hnew : g.key = none ∨ ∀ a ∈ groups, a.key ≠ g.key) : KeyInv site (groups ++ [g]) := by
  refine ⟨fun a ha => ?_, List.pairwise_append.2 ⟨h.distinct, List.pairwise_singleton _ _, ?_⟩⟩
  · rcases List.mem_append.1 ha with ha | ha
    · exact h.keyed a ha
    · rwa [List.mem_singleton.1 ha]
  · intro a ha b hb
    obtain rfl := List.mem_singleton.1 hb
    rcases hnew with hnone | hne
    · by_cases hkey : a.key = none
      · exact .inl hkey
      · exact .inr (by rwa [hnone])
    · exact .inr (hne a ha)

/-- An edge joins the group of its key. -/
theorem KeyInv.joined (h : KeyInv site groups) {e : FanoutEdge} {n : NormNode × String}
    (hn : site e = some n) : KeyInv site (groups.map fun g =>
      if g.key = some (n.1.id, n.2) then { g with edges := g.edges ++ [e] } else g) := by
  have hkey : ∀ g : BranchGroup, (if g.key = some (n.1.id, n.2) then
      { g with edges := g.edges ++ [e] } else g).key = g.key := fun g => by split <;> rfl
  refine ⟨fun a ha => ?_, ?_⟩
  · obtain ⟨g, hg, rfl⟩ := List.mem_map.1 ha
    have hk := h.keyed g hg
    split
    · rename_i heq
      refine ⟨fun e' he' => ?_, hk.named⟩
      rcases List.mem_append.1 he' with he' | he'
      · exact hk.edges e' he'
      · rw [List.mem_singleton.1 he', hn]
        exact heq.symm
    · exact hk
  · rw [List.pairwise_map]
    simpa only [hkey] using h.distinct

theorem KeyInv.addEdge (h : KeyInv site groups) (e : FanoutEdge) :
    KeyInv site (addEdge site groups e) := by
  unfold GraphCompiler.addEdge
  split
  · rename_i norm pin hs
    split
    · exact h.joined hs
    · rename_i hany
      refine h.opened ⟨fun e' he' => ?_, fun k hk => ?_⟩ (.inr fun a ha heq => hany ?_)
      · rw [List.mem_singleton.1 he', hs]
        rfl
      · cases hk
        exact ⟨rfl, e, (norm, pin), hs, rfl, rfl⟩
      · exact List.any_eq_true.2 ⟨a, ha, decide_eq_true heq⟩
  · rename_i hs
    refine h.opened ⟨fun e' he' => ?_, fun k hk => by cases hk⟩ (.inl rfl)
    rw [List.mem_singleton.1 he', hs]
    rfl

end Keys

theorem keyInv_branchGroups (ng : NormalizedGraph) (y2c : TreeMap YosysNetID CompiledNetIndex)
    (nodes : List LoweredNode) (stem : CompiledNetIndex) :
    KeyInv (edgeSite ng y2c nodes stem) (branchGroups ng y2c nodes stem) := by
  unfold branchGroups
  split
  · exact ⟨by simp, .nil⟩
  · exact Lib.foldl_invariant (KeyInv (edgeSite ng y2c nodes stem)) ⟨by simp, .nil⟩
      fun e _ _ h => h.addEdge e

/-! ## The plan -/

section Plan

variable {ng : NormalizedGraph} {index : NetIndex} {nodes : List LoweredNode}

theorem keyed_of_mem_plan {p : CompiledNetIndex × BranchGroup} (hp : p ∈ plan ng index nodes) :
    Keyed (edgeSite ng index.y2c nodes p.1) p.2 :=
  (keyInv_branchGroups ng index.y2c nodes p.1).keyed p.2 (mem_plan.1 hp).2

/-- Two groups of the plan differ in the stem or in the key. -/
theorem pairwise_plan : (plan ng index nodes).Pairwise fun p q =>
    p.1 ≠ q.1 ∨ p.2.key = none ∨ p.2.key ≠ q.2.key := by
  rw [plan, List.pairwise_flatMap]
  constructor
  · intro stem _
    rw [List.pairwise_map]
    exact (keyInv_branchGroups ng index.y2c nodes stem).distinct.imp fun h => .inr h
  · refine List.nodup_range.imp fun {a b} hab => ?_
    intro p hp q hq
    obtain ⟨-, -, rfl⟩ := List.mem_map.1 hp
    obtain ⟨-, -, rfl⟩ := List.mem_map.1 hq
    exact .inl hab

/-- A stem and a key have one branch. -/
theorem plan_inj {i j : ℕ} {p q : CompiledNetIndex × BranchGroup}
    (hp : (plan ng index nodes)[i]? = some p) (hq : (plan ng index nodes)[j]? = some q)
    (hstem : p.1 = q.1) (hkey : p.2.key = q.2.key) (hsome : p.2.key ≠ none) : i = j := by
  have hlt : ∀ {i j : ℕ} {p q : CompiledNetIndex × BranchGroup},
      (plan ng index nodes)[i]? = some p → (plan ng index nodes)[j]? = some q → p.1 = q.1 →
      p.2.key = q.2.key → p.2.key ≠ none → ¬ i < j := by
    intro i j p q hp hq hstem hkey hsome hij
    obtain ⟨hi, rfl⟩ := List.getElem?_eq_some_iff.1 hp
    obtain ⟨hj, rfl⟩ := List.getElem?_eq_some_iff.1 hq
    rcases List.pairwise_iff_getElem.1 pairwise_plan i j hi hj hij with h | h | h
    · exact h hstem
    · exact hsome h
    · exact h hkey
  have h1 := hlt hp hq hstem hkey hsome
  have h2 := hlt hq hp hstem.symm hkey.symm (hkey ▸ hsome)
  omega

/-- The sites of the branches; a stem has the default one. -/
theorem netSites_split :
    (∀ i < index.c2y.length, (splitFanoutBranches ng index nodes).netSites i = {}) ∧
    ∀ j p, (plan ng index nodes)[j]? = some p →
      (splitFanoutBranches ng index nodes).netSites (index.c2y.length + j) =
        if p.2.instanceName ≠ "" ∧ p.2.inputPin ≠ "" then
          { kind := .BRANCH, consumerInstance := p.2.instanceName, inputPin := p.2.inputPin }
        else {} := by
  have hinv := Lib.foldl_visited (l := plan ng index nodes)
    (b := ({ nodes := nodes, c2y := index.c2y } : Splitting))
    (f := fun st p => addBranch p.1 st p.2)
    (fun (done : List (CompiledNetIndex × BranchGroup)) (st : Splitting) =>
      st.c2y.length = index.c2y.length + done.length ∧
      (∀ i < index.c2y.length, st.netSites i = {}) ∧
      (∀ i, st.c2y.length ≤ i → st.netSites i = {}) ∧
      ∀ j p, done[j]? = some p → st.netSites (index.c2y.length + j) =
        if p.2.instanceName ≠ "" ∧ p.2.inputPin ≠ "" then
          { kind := .BRANCH, consumerInstance := p.2.instanceName, inputPin := p.2.inputPin }
        else {})
    ⟨by simp, fun _ _ => rfl, fun _ _ => rfl, by simp⟩ ?_
  · rw [splitFanoutBranches_eq]
    exact ⟨hinv.2.1, hinv.2.2.2⟩
  · rintro pre p post st - ⟨hlen, hstem, hnew, hsite⟩
    have hsites : ∀ i, (addBranch p.1 st p.2).netSites i =
        if i = st.c2y.length then
          (if p.2.instanceName ≠ "" ∧ p.2.inputPin ≠ "" then
            { kind := .BRANCH, consumerInstance := p.2.instanceName, inputPin := p.2.inputPin }
          else {})
        else st.netSites i := by
      intro i
      simp only [addBranch]
      by_cases hi : i = st.c2y.length
      · subst hi
        split
        · simp
        · simp [hnew _ le_rfl]
      · rw [if_neg hi]
        split
        · exact Function.update_of_ne hi ..
        · rfl
    have hlen' : (addBranch p.1 st p.2).c2y.length = st.c2y.length + 1 := by simp [addBranch]
    refine ⟨by simp [hlen', hlen, Nat.add_assoc], fun i hi => ?_, fun i hi => ?_, fun j q hq => ?_⟩
    · have hne : i ≠ st.c2y.length := by omega
      rw [hsites, if_neg hne, hstem i hi]
    · have hne : i ≠ st.c2y.length := by omega
      rw [hsites, if_neg hne, hnew i (by omega)]
    · have hj := (List.getElem?_eq_some_iff.1 hq).1
      rw [List.length_append, List.length_singleton] at hj
      rw [hsites]
      rcases Nat.lt_or_ge j pre.length with hlt | hge
      · have hne : index.c2y.length + j ≠ st.c2y.length := by omega
        rw [List.getElem?_append_left hlt] at hq
        rw [if_neg hne, hsite j q hq]
      · have hje : j = pre.length := Nat.le_antisymm (Nat.lt_succ_iff.1 hj) hge
        subst hje
        rw [List.getElem?_append_right le_rfl, Nat.sub_self, List.getElem?_cons_zero] at hq
        cases hq
        rw [if_pos hlen.symm]

end Plan

theorem mem_inputPins {n : NormNode} {p : String} {y : YosysNetID} :
    (p, y) ∈ n.inputPins.toList ↔ n.inputPins[p]? = some y :=
  TreeMap.mem_toList_iff_getElem?_eq_some

/-- The pin that is looked up for a net is on the net, when one is. -/
theorem pinForCompiledInput_spec {n : NormNode} {y2c : TreeMap YosysNetID CompiledNetIndex}
    {m : CompiledNetIndex} (h : ∃ (p : String) (y : YosysNetID), n.inputPins[p]? = some y ∧
      y2c[y]? = some m) : ∃ y, n.inputPins[pinForCompiledInput n y2c m]? = some y ∧
        y2c[y]? = some m := by
  obtain ⟨p, y, hp, hy⟩ := h
  unfold pinForCompiledInput
  cases hfind : n.inputPins.toList.find? fun p => y2c[p.2]? = some m with
  | none =>
    have hnot := List.find?_eq_none.1 hfind (p, y) (mem_inputPins.2 hp)
    exact absurd (decide_eq_true hy) hnot
  | some q =>
    have hq := List.find?_some hfind
    exact ⟨q.2, mem_inputPins.1 (List.mem_of_find?_eq_some hfind),
      of_decide_eq_true hq⟩

/-- The slots of a flip-flop hold the nets of its wiring. -/
theorem ffSlots_in {m : NetIndex} {cfg : FFConfig}
    (hcov : m.Covers fun y => ∃ w ∈ ffWiring cfg, w.1 = y) :
    SlotsIn m (fun y => ∃ w ∈ ffWiring cfg, w.1 = y) (ffSlots cfg m) := by
  have hinv := Lib.foldl_invariant (l := ffWiring cfg) (f := wireFf)
    (b := ((fun _ => none, m) : (Fin 6 → Option CompiledNetIndex) × NetIndex))
    (fun st : (Fin 6 → Option CompiledNetIndex) × NetIndex =>
      st.2 = m ∧ SlotsIn m (fun y => ∃ w ∈ ffWiring cfg, w.1 = y) st.1)
    ⟨rfl, fun s i hi => by cases hi⟩ ?_
  · exact hinv.2
  · rintro w hw ⟨ins, m'⟩ ⟨rfl, hins⟩
    obtain ⟨i, hi⟩ := hcov w.1 ⟨w, hw, rfl⟩
    simp only [wireFf, mapNet_eq_of_some hi]
    exact ⟨trivial, hins.update ⟨w, hw, rfl⟩ hi w.2⟩

end GraphCompiler

open GraphCompiler

namespace CachedGraph

variable (g : CachedGraph)

/-- The pin `p` of node `n` is on the compiled net `m`. -/
def PinOn (n : NormNode) (p : String) (m : CompiledNetIndex) : Prop :=
  n ∈ g.ng.nodes ∧ ∃ y, n.inputPins[p]? = some y ∧ g.low.index.y2c[y]? = some m

/-- Slot `s` of the lowered node `k` reads the net `m` for the node `n`. -/
def SlotOn (n : NormNode) (m : CompiledNetIndex) (k : ℕ) (s : Fin 6) : Prop :=
  ∃ ln, g.low.nodes[k]? = some ln ∧ ln.owner = some n.id ∧ ln.node.ins s = some m

/-- No node has two input pins on one net. -/
def Untied : Prop :=
  ∀ n ∈ g.ng.nodes, ∀ (p q : String) y, n.inputPins[p]? = some y → n.inputPins[q]? = some y → p = q

/-- Every input pin of a node fills a slot of a node it is lowered to. -/
def PinsWired : Prop := ∀ n p m, g.PinOn n p m → ∃ k s, g.SlotOn n m k s

/-- Every net that a flip-flop reads is on one of its declared input pins. -/
def FfPinsDeclared : Prop :=
  ∀ n ∈ g.ng.nodes, n.type = .FF → ∀ w ∈ ffWiring n.ffConfig, OnInput n w.1

/-- The names in the keys can be read back: instances and pins have a name, no two
nodes with input pins share an instance name, and a pin has no colon. -/
structure SitesNamed : Prop where
  named : ∀ n ∈ g.ng.nodes, ∀ (p : String) y, n.inputPins[p]? = some y →
    n.instanceName ≠ "" ∧ p ≠ "" ∧ ':' ∉ p.toList
  distinct : ∀ n ∈ g.ng.nodes, ∀ n' ∈ g.ng.nodes, (∃ y, OnInput n y) → (∃ y, OnInput n' y) →
    n.instanceName = n'.instanceName → n = n'

variable {n : NormNode}

theorem onInput_iff {y : YosysNetID} :
    OnInput n y ↔ ∃ x ∈ n.inputPins.toList, x.2 = y :=
  ⟨fun ⟨p, hp⟩ => ⟨(p, y), mem_inputPins.2 hp, rfl⟩,
    fun ⟨x, hx, hy⟩ => ⟨x.1, hy ▸ mem_inputPins.1 hx⟩⟩

instance : Decidable g.Untied :=
  decidable_of_iff (∀ n ∈ g.ng.nodes, ∀ x ∈ n.inputPins.toList, ∀ z ∈ n.inputPins.toList,
      x.2 = z.2 → x.1 = z.1)
    ⟨fun h n hn p q y hp hq => h n hn (p, y) (mem_inputPins.2 hp) (q, y) (mem_inputPins.2 hq) rfl,
      fun h n hn x hx z hz hxz =>
        h n hn x.1 z.1 x.2 (mem_inputPins.1 hx) (hxz ▸ mem_inputPins.1 hz)⟩

instance : Decidable g.PinsWired :=
  decidable_of_iff (∀ n ∈ g.ng.nodes, ∀ x ∈ n.inputPins.toList,
      g.low.index.y2c[x.2]? = none ∨ ∃ ln ∈ g.low.nodes, ln.owner = some n.id ∧
        ∃ s, ln.node.ins s ≠ none ∧ ln.node.ins s = g.low.index.y2c[x.2]?) <| by
    constructor
    · rintro h n p m ⟨hn, y, hy, hm⟩
      rcases h n hn (p, y) (mem_inputPins.2 hy) with hnone | ⟨ln, hln, howner, s, -, hs⟩
      · exact absurd (hm.symm.trans hnone) (Option.some_ne_none _)
      · obtain ⟨k, hk⟩ := List.getElem?_of_mem hln
        exact ⟨k, s, ln, hk, howner, hs.trans hm⟩
    · intro h n hn x hx
      cases hm : g.low.index.y2c[x.2]? with
      | none => exact .inl rfl
      | some m =>
        obtain ⟨k, s, ln, hk, howner, hs⟩ := h n x.1 m ⟨hn, x.2, mem_inputPins.1 hx, hm⟩
        exact .inr ⟨ln, List.mem_of_getElem? hk, howner, s, by rw [hs]; exact Option.some_ne_none _, hs⟩

instance : Decidable g.FfPinsDeclared :=
  decidable_of_iff (∀ n ∈ g.ng.nodes, n.type = .FF → ∀ w ∈ ffWiring n.ffConfig,
      ∃ x ∈ n.inputPins.toList, x.2 = w.1)
    ⟨fun h n hn ht w hw => onInput_iff.2 (h n hn ht w hw),
      fun h n hn ht w hw => onInput_iff.1 (h n hn ht w hw)⟩

instance : Decidable g.SitesNamed :=
  decidable_of_iff ((∀ n ∈ g.ng.nodes, ∀ x ∈ n.inputPins.toList,
      n.instanceName ≠ "" ∧ x.1 ≠ "" ∧ ':' ∉ x.1.toList) ∧
      ∀ n ∈ g.ng.nodes, ∀ n' ∈ g.ng.nodes, n.inputPins.toList ≠ [] → n'.inputPins.toList ≠ [] →
        n.instanceName = n'.instanceName → n.id = n'.id) <| by
    have hpins : ∀ n : NormNode, n.inputPins.toList ≠ [] ↔ ∃ y, OnInput n y := by
      intro n
      constructor
      · intro h
        obtain ⟨x, hx⟩ := List.exists_mem_of_ne_nil _ h
        exact ⟨x.2, x.1, mem_inputPins.1 hx⟩
      · rintro ⟨y, p, hp⟩
        exact List.ne_nil_of_mem (mem_inputPins.2 hp)
    constructor
    · rintro ⟨h, hinst⟩
      refine ⟨fun n hn p y hp => h n hn (p, y) (mem_inputPins.2 hp), ?_⟩
      intro n hn n' hn' hy hy' heq
      exact g.levelized.inv.eq_of_id hn hn' (hinst n hn n' hn' ((hpins n).2 hy) ((hpins n').2 hy') heq)
    · rintro ⟨h, hinst⟩
      refine ⟨fun n hn x hx => h n hn x.1 x.2 (mem_inputPins.1 hx), ?_⟩
      intro n hn n' hn' hy hy' heq
      rw [hinst n hn n' hn' ((hpins n).1 hy) ((hpins n').1 hy') heq]

variable {g} {k : ℕ} {s : Fin 6} {m : CompiledNetIndex} {ln : LoweredNode} {p : String}
  {i : CompiledNetIndex}

/-- A slot reads the net of an input pin of its owner. -/
theorem exists_pinOn (hff : g.FfPinsDeclared) (hln : g.low.nodes[k]? = some ln)
    (hs : ln.node.ins s = some m) : ∃ n p, ln.owner = some n.id ∧ g.PinOn n p m := by
  obtain ⟨n, hn, hmem, howner⟩ := g.exists_lowerings (List.mem_of_getElem? hln)
  have hs' : ln.bare.node.ins s = some m := hs
  have hclosed := g.levelized.inv.closed n hn
  have hcov : g.low.index.Covers (· ∈ g.ng.nets) := by
    rw [g.lowered.index]
    exact (initialIndex_spec g.ng).2
  have hgate : ∀ p ∈ n.outputPins.toList, loweredOutput g.low.index n p = ln.bare →
      ∃ y, OnInput n y ∧ g.low.index.y2c[y]? = some m := by
    intro p _ heq
    rw [← heq] at hs'
    exact (wireInputs_spec _ fun y ⟨pin, hy⟩ => hcov y (hclosed.inputs pin y hy)).2 s m hs'
  have hnet : ∃ y, OnInput n y ∧ g.low.index.y2c[y]? = some m := by
    unfold lowerings at hmem
    split at hmem
    · rename_i htype
      have hins : ln.bare.node.ins = ffSlots n.ffConfig g.low.index := by
        rw [List.mem_singleton.1 hmem]
      rw [hins] at hs'
      have hwire : g.low.index.Covers fun y => ∃ w ∈ ffWiring n.ffConfig, w.1 = y := by
        rintro y ⟨w, hw, rfl⟩
        obtain ⟨pin, hpin⟩ := hff n hn htype w hw
        exact hcov _ (hclosed.inputs pin _ hpin)
      obtain ⟨y, ⟨w, hw, rfl⟩, hy⟩ := ffSlots_in hwire s m hs'
      exact ⟨w.1, hff n hn htype w hw, hy⟩
    · obtain ⟨p, hp, heq⟩ := List.mem_map.1 hmem
      exact hgate p hp heq
    · obtain ⟨p, hp, heq⟩ := List.mem_map.1 hmem
      exact hgate p hp heq
    · exact absurd hmem List.not_mem_nil
  obtain ⟨y, ⟨pin, hpin⟩, hy⟩ := hnet
  exact ⟨n, pin, howner, hn, y, hpin, hy⟩

/-- The site of an edge is its owner, with a pin on the net. -/
theorem edgeSite_eq (hnames : g.SitesNamed) (hpin : g.PinOn n p m) (hslot : g.SlotOn n m k s) :
    ∃ q, edgeSite g.ng g.low.index.y2c g.low.nodes m ⟨k, s⟩ = some (n, q) ∧ g.PinOn n q m := by
  obtain ⟨hn, y, hy, hm⟩ := hpin
  obtain ⟨ln, hln, howner, -⟩ := hslot
  obtain ⟨y', hy', hm'⟩ := pinForCompiledInput_spec (n := n) ⟨p, y, hy, hm⟩
  have hfind : g.ng.nodes.find? (fun node => ln.owner = some node.id) = some n := by
    cases hfind : g.ng.nodes.find? fun node => ln.owner = some node.id with
    | none => exact absurd (decide_eq_true howner) (List.find?_eq_none.1 hfind n hn)
    | some n' =>
      have hid : ln.owner = some n'.id := by simpa using List.find?_some hfind
      rw [howner, Option.some.injEq] at hid
      rw [g.levelized.inv.eq_of_id hn (List.mem_of_find?_eq_some hfind) hid]
  refine ⟨pinForCompiledInput n g.low.index.y2c m, ?_, hn, y', hy', hm'⟩
  have hne := (hnames.named n hn _ y' hy').2.1
  simp only [edgeSite, hln, hfind, Option.bind_eq_bind, Option.bind_some, if_neg hne]

/-- **The branch of a slot on a wide net** belongs to the group of its owner, under a
pin of the owner on the net. -/
theorem exists_branch (hff : g.FfPinsDeclared) (hnames : g.SitesNamed)
    (hln : g.low.nodes[k]? = some ln) (hs : ln.node.ins s = some m) (hw : Wide g.low.nodes m) :
    ∃ n q j b sn, ln.owner = some n.id ∧ g.PinOn n q m ∧
      (plan g.ng g.low.index g.low.nodes)[j]? = some (m, b) ∧ b.key = some (n.id, q) ∧
      g.split.nodes[k]? = some sn ∧ sn.node.ins s = some (g.stemCount + j) := by
  obtain ⟨n, p, howner, hpin⟩ := exists_pinOn hff hln hs
  obtain ⟨q, hsite, hq⟩ := edgeSite_eq hnames hpin ⟨ln, hln, howner, hs⟩
  have hinv : SplitInv g.low.nodes g.low.index.c2y (plan g.ng g.low.index g.low.nodes) g.split :=
    splitInv_plan g.ng g.low.index
  obtain ⟨ins, hins, hslots⟩ := hinv.node k ln hln
  rcases hslots s with ⟨-, hnot⟩ | ⟨j, ⟨m', b⟩, hj, hmem, heq⟩
  · -- a wide net's edges are all in its groups
    have hgroups := branchGroups_spec g.ng g.low.index.y2c g.low.nodes m
    rw [if_pos hw] at hgroups
    obtain ⟨b, hb, he⟩ := hgroups.cover ⟨k, s⟩ (mem_fanoutEdges.2 ⟨ln, hln, hs⟩)
    have hlt := g.lt_stemCount_of_ins (List.mem_of_getElem? hln) hs
    exact absurd he (hnot (m, b) (mem_plan.2 ⟨hlt, hb⟩))
  · obtain ⟨-, hplan, -⟩ := wide_of_mem_plan (List.mem_of_getElem? hj)
    obtain ⟨ln', hln', hm'⟩ := mem_fanoutEdges.1 (hplan.sub _ hmem)
    rw [hln] at hln'
    cases hln'
    obtain rfl : m = m' := Option.some.inj (hs.symm.trans hm')
    have hkey := (keyed_of_mem_plan (List.mem_of_getElem? hj)).edges _ hmem
    rw [hsite] at hkey
    exact ⟨n, q, j, b, _, howner, hq, hj, hkey.symm, hins, heq⟩

theorem mem_nodes_of_edgeSite {e : FanoutEdge} {n : NormNode × String}
    (h : edgeSite g.ng g.low.index.y2c g.low.nodes m e = some n) : n.1 ∈ g.ng.nodes := by
  unfold edgeSite at h
  obtain ⟨ln, -, h⟩ := Option.bind_eq_some_iff.1 h
  obtain ⟨norm, hnorm, h⟩ := Option.bind_eq_some_iff.1 h
  dsimp only at h
  split at h
  · cases h
  · cases h
    exact List.mem_of_find?_eq_some hnorm

/-- **The site of a branch** names a node and one of its pins on the stem. -/
theorem branch_site (hff : g.FfPinsDeclared) (hnames : g.SitesNamed) {j : ℕ} {b : BranchGroup}
    (hj : (plan g.ng g.low.index g.low.nodes)[j]? = some (m, b)) :
    ∃ n q, b.key = some (n.id, q) ∧ g.PinOn n q m ∧ g.cg.netSites (g.stemCount + j) =
      { kind := .BRANCH, consumerInstance := n.instanceName, inputPin := q } := by
  obtain ⟨hw, hplan, -⟩ := wide_of_mem_plan (List.mem_of_getElem? hj)
  have hkeyed := keyed_of_mem_plan (List.mem_of_getElem? hj)
  obtain ⟨e, he⟩ := List.exists_mem_of_ne_nil _ hplan.nonempty
  obtain ⟨ln, hln, hs⟩ := mem_fanoutEdges.1 (hplan.sub e he)
  obtain ⟨n, p, howner, hpin⟩ := exists_pinOn hff hln hs
  obtain ⟨q, hsite, hq⟩ := edgeSite_eq hnames hpin (s := e.slot) ⟨ln, hln, howner, hs⟩
  have hkey := hkeyed.edges e he
  rw [hsite] at hkey
  obtain ⟨hinput, e', n', hsite', hid, hinst⟩ := hkeyed.named _ hkey.symm
  have hsame : n'.1 = n := g.levelized.inv.eq_of_id (mem_nodes_of_edgeSite hsite') hpin.1 hid
  refine ⟨n, q, hkey.symm, hq, ?_⟩
  obtain ⟨hn, y, hy, -⟩ := hq
  obtain ⟨hinst', hpin', -⟩ := hnames.named n hn q y hy
  have hsites : g.cg.netSites = g.split.netSites := by
    rw [g.cg_eq]
    rfl
  have hname : b.instanceName = n.instanceName := by rw [hinst, hsame]
  have hpin'' : b.inputPin = q := hinput
  rw [hsites]
  refine (netSites_split.2 j (m, b) hj).trans ?_
  rw [hname, hpin'', if_pos ⟨hinst', hpin'⟩]

/-- The branch net `b` belongs to the pin `p` of node `n` on net `m` alone: it is a
buffer from the net, its site is the pin, and the slots that read it are those of
the node on the net. -/
structure Carries (g : CachedGraph) (b : CompiledNetIndex) (n : NormNode) (p : String)
    (m : CompiledNetIndex) : Prop where
  branch : g.stemCount ≤ b ∧ b < g.cg.netCount
  buf : ∃ sn ∈ g.cg.nodes, sn.type = .BUF ∧ sn.inputNets = [m] ∧ sn.out = b
  site : g.cg.netSites b =
    { kind := .BRANCH, consumerInstance := n.instanceName, inputPin := p }
  reads : ∀ k sn s, g.split.nodes[k]? = some sn → (sn.node.ins s = some b ↔ g.SlotOn n m k s)

/-- Two pins on a net make it wide. -/
theorem wide_of_pinOn (huntied : g.Untied) (hwired : g.PinsWired) {n n' : NormNode} {p' : String}
    (h : g.PinOn n p m) (h' : g.PinOn n' p' m) (hne : (n.id, p) ≠ (n'.id, p')) :
    Wide g.low.nodes m := by
  obtain ⟨k, s, ln, hln, howner, hs⟩ := hwired n p m h
  obtain ⟨k', s', ln', hln', howner', hs'⟩ := hwired n' p' m h'
  have hedge : (⟨k, s⟩ : FanoutEdge) ∈ fanoutEdges g.low.nodes m :=
    mem_fanoutEdges.2 ⟨ln, hln, hs⟩
  have hedge' : (⟨k', s'⟩ : FanoutEdge) ∈ fanoutEdges g.low.nodes m :=
    mem_fanoutEdges.2 ⟨ln', hln', hs'⟩
  have hdiff : (⟨k, s⟩ : FanoutEdge) ≠ ⟨k', s'⟩ := by
    intro heq
    obtain ⟨rfl, rfl⟩ := FanoutEdge.mk.inj heq
    rw [hln] at hln'
    cases hln'
    rw [howner, Option.some.injEq] at howner'
    obtain ⟨hn, y, hy, hm⟩ := h
    obtain ⟨hn', y', hy', hm'⟩ := h'
    obtain rfl := g.levelized.inv.eq_of_id hn hn' howner'
    obtain rfl := g.index_valid.inj hm hm'
    exact hne (by rw [huntied n hn p p' y hy hy'])
  by_contra hw
  unfold Wide at hw
  obtain ⟨e, heq⟩ := List.length_eq_one_iff.1
    (Nat.le_antisymm (by omega) (List.length_pos_of_mem hedge))
  rw [heq, List.mem_singleton] at hedge hedge'
  exact hdiff (hedge.trans hedge'.symm)

/-- **A pin on a wide net has a branch of its own.** -/
theorem exists_carries (huntied : g.Untied) (hwired : g.PinsWired) (hff : g.FfPinsDeclared)
    (hnames : g.SitesNamed) (hpin : g.PinOn n p m) (hw : Wide g.low.nodes m) :
    ∃ b, g.Carries b n p m := by
  have hinv : SplitInv g.low.nodes g.low.index.c2y (plan g.ng g.low.index g.low.nodes) g.split :=
    splitInv_plan g.ng g.low.index
  -- no node has two pins on the net, so the pin that is looked up is the pin
  have hpins : ∀ n' q, g.PinOn n' q m → n'.id = n.id → n' = n ∧ q = p := by
    rintro n' q ⟨hn', y', hy', hm'⟩ hid
    obtain ⟨hn, y, hy, hm⟩ := hpin
    obtain rfl := g.levelized.inv.eq_of_id hn' hn hid
    obtain rfl := g.index_valid.inj hm hm'
    exact ⟨rfl, huntied _ hn q p y hy' hy⟩
  obtain ⟨k, s, ln, hln, howner, hs⟩ := hwired n p m hpin
  obtain ⟨n₁, q, j, b, -, howner₁, hq, hj, hkey, -, -⟩ := exists_branch hff hnames hln hs hw
  obtain ⟨rfl, rfl⟩ := hpins n₁ q hq (Option.some.inj (howner₁.symm.trans howner))
  obtain ⟨n₂, q₂, hkey₂, hq₂, hsite⟩ := branch_site hff hnames hj
  have hid₂ := Option.some.inj (hkey₂.symm.trans hkey)
  obtain ⟨rfl, rfl⟩ := hpins n₂ q₂ hq₂ (congrArg Prod.fst hid₂)
  have hjlt : j < (plan g.ng g.low.index g.low.nodes).length := (List.getElem?_eq_some_iff.1 hj).1
  have hcount : g.cg.netCount = g.stemCount + (plan g.ng g.low.index g.low.nodes).length := by
    rw [g.netCount_eq]
    exact hinv.length_c2y
  have hlt : g.stemCount + j < g.cg.netCount := hcount ▸ Nat.add_lt_add_left hjlt _
  refine ⟨g.stemCount + j, ⟨Nat.le_add_right _ _, hlt⟩, ?_, hsite, fun k' sn s' hsn => ?_⟩
  · have hbuf := hinv.branch j (m, b) hj
    exact ⟨_, g.mem_nodes.2 ⟨(_, _), rfl, hbuf⟩, rfl, rfl, rfl⟩
  constructor
  · intro hread
    rcases Nat.lt_or_ge k' g.low.nodes.length with hk' | hk'
    · obtain ⟨ln', hln'⟩ : ∃ ln', g.low.nodes[k']? = some ln' := ⟨_, List.getElem?_eq_getElem hk'⟩
      obtain ⟨ins, hins, hslots⟩ := hinv.node k' ln' hln'
      rw [hsn] at hins
      cases hins
      rcases hslots s' with ⟨heq, -⟩ | ⟨j', ⟨m', b'⟩, hj', hmem, heq⟩
      · have hstem := g.lt_stemCount_of_ins (List.mem_of_getElem? hln') (heq.symm.trans hread)
        exact absurd hstem (Nat.not_lt.2 (Nat.le_add_right _ _))
      · obtain rfl : j' = j := Nat.add_left_cancel (Option.some.inj (heq.symm.trans hread))
        rw [hj] at hj'
        cases hj'
        obtain ⟨-, hplan, -⟩ := wide_of_mem_plan (List.mem_of_getElem? hj)
        obtain ⟨ln₁, hln₁, hs₁⟩ := mem_fanoutEdges.1 (hplan.sub _ hmem)
        rw [hln'] at hln₁
        cases hln₁
        have hedge := (keyed_of_mem_plan (List.mem_of_getElem? hj)).edges _ hmem
        rw [hkey, Option.map_eq_some_iff] at hedge
        obtain ⟨n₃, hsite₃, hid₃⟩ := hedge
        have howner₃ := owner_of_edgeSite hsite₃ hln'
        exact ⟨ln', hln', howner₃.trans (congrArg some (congrArg Prod.fst hid₃)), hs₁⟩
    · -- a branch reads its stem
      obtain ⟨j', rfl⟩ := Nat.exists_eq_add_of_le hk'
      have hj' : j' < (plan g.ng g.low.index g.low.nodes).length := by
        have hlen := (List.getElem?_eq_some_iff.1 hsn).1
        rw [hinv.length_nodes] at hlen
        omega
      have hbuf := hinv.branch j' _ (List.getElem?_eq_getElem hj')
      rw [hsn] at hbuf
      cases hbuf
      have hstem := branchBuf_reads.1 ⟨s', hread⟩
      have hstem' := (mem_plan.1 (List.getElem_mem hj')).1
      rw [← hstem] at hstem'
      exact absurd hstem' (Nat.not_lt.2 (Nat.le_add_right _ _))
  · rintro ⟨ln', hln', howner', hs'⟩
    obtain ⟨n₁, q, j', b', sn', howner₁, hq, hj', hkey', hsn', hread⟩ :=
      exists_branch hff hnames hln' hs' hw
    obtain ⟨rfl, rfl⟩ := hpins n₁ q hq (Option.some.inj (howner₁.symm.trans howner'))
    rw [hsn] at hsn'
    cases hsn'
    have hjj := plan_inj hj hj' rfl (hkey.trans hkey'.symm) (by rw [hkey]; exact Option.some_ne_none _)
    rw [hread, hjj]

/-! ## Keys -/

/-- The key of a net by its number and what follows. -/
theorem key_inj {y y' : ℤ} {r r' : List Char}
    (h : "net:".toList ++ (toString y).toList ++ ':' :: r =
      "net:".toList ++ (toString y').toList ++ ':' :: r') : y = y' ∧ r = r' := by
  have hcolon : ∀ z : ℤ, ':' ∉ (toString z).toList := by
    intro z hz
    rcases Lib.int_toString_chars hz with hd | hd
    · exact absurd hd (by decide)
    · exact absurd hd (by decide)
  rw [List.append_assoc, List.append_assoc] at h
  obtain ⟨hy, hr⟩ := Lib.append_sep_inj (hcolon y) (hcolon y') (List.append_cancel_left h)
  exact ⟨Int.repr_injective (String.toList_inj.1 hy), hr⟩

/-- A net is a stem, under the number it has in the netlist, or a branch. -/
theorem net_cases (hi : i < g.cg.netCount) :
    (i < g.stemCount ∧ g.cg.netSites i = {} ∧ g.low.index.c2y[i]? = some (g.cg.yosysOf i)) ∨
    ∃ j m b, i = g.stemCount + j ∧ (plan g.ng g.low.index g.low.nodes)[j]? = some (m, b) ∧
      g.low.index.c2y[m]? = some (g.cg.yosysOf i) := by
  have hinv : SplitInv g.low.nodes g.low.index.c2y (plan g.ng g.low.index g.low.nodes) g.split :=
    splitInv_plan g.ng g.low.index
  have hyosys : ∀ y, g.split.c2y[i]? = some y → g.cg.yosysOf i = y := by
    intro y hy
    rw [CompiledSimGraph.yosysOf, g.compiledToYosys_eq, List.getD_eq_getElem?_getD, hy]
    rfl
  rcases Nat.lt_or_ge i g.stemCount with hlt | hge
  · have hget : g.low.index.c2y[i]? = some g.low.index.c2y[i] := List.getElem?_eq_getElem hlt
    refine .inl ⟨hlt, ?_, ?_⟩
    · rw [g.cg_eq]
      exact netSites_split.1 i hlt
    · rw [hyosys _ ((hinv.stem i hlt).trans hget), hget]
  · obtain ⟨j, rfl⟩ := Nat.exists_eq_add_of_le hge
    have hj : j < (plan g.ng g.low.index g.low.nodes).length := by
      rw [g.netCount_eq, hinv.length_c2y] at hi
      exact Nat.lt_of_add_lt_add_left hi
    obtain ⟨⟨m, b⟩, hp⟩ : ∃ p, (plan g.ng g.low.index g.low.nodes)[j]? = some p :=
      ⟨_, List.getElem?_eq_getElem hj⟩
    have hlt : m < g.low.index.c2y.length := (mem_plan.1 (List.mem_of_getElem? hp)).1
    have hget : g.low.index.c2y[m]? = some g.low.index.c2y[m] := List.getElem?_eq_getElem hlt
    refine .inr ⟨j, m, b, rfl, hp, ?_⟩
    rw [hyosys _ ((hinv.site j _ hp).trans hget), hget]

/-- The key of a net: its number in the netlist, and `stem` or the pin of its site. -/
theorem canonicalSiteKey_cases (hff : g.FfPinsDeclared) (hnames : g.SitesNamed)
    (hi : i < g.cg.netCount) : ∃ key, canonicalSiteKey g.cg i = .ok key ∧
      ((i < g.stemCount ∧ g.low.index.c2y[i]? = some (g.cg.yosysOf i) ∧
        key.toList = "net:".toList ++ (toString (g.cg.yosysOf i)).toList ++ ':' :: "stem".toList) ∨
      ∃ j m b n q, i = g.stemCount + j ∧
        (plan g.ng g.low.index g.low.nodes)[j]? = some (m, b) ∧
        g.low.index.c2y[m]? = some (g.cg.yosysOf i) ∧ b.key = some (n.id, q) ∧ g.PinOn n q m ∧
        key.toList = "net:".toList ++ (toString (g.cg.yosysOf i)).toList ++
          ':' :: ("branch:".toList ++ (n.instanceName.toList ++ ':' :: q.toList))) := by
  rcases net_cases hi with ⟨hlt, hsite, hy⟩ | ⟨j, m, b, rfl, hj, hy⟩
  · refine ⟨"net:" ++ toString (g.cg.yosysOf i) ++ ":stem", ?_, .inl ⟨hlt, hy, ?_⟩⟩
    · simp [canonicalSiteKey, Nat.not_le.2 hi, hsite]
    · simp only [String.toList_append]
      rfl
  · obtain ⟨n, q, hkey, hq, hsite⟩ := branch_site hff hnames hj
    obtain ⟨hinst, hpin, -⟩ := hnames.named n hq.1 q _ hq.2.choose_spec.1
    refine ⟨"net:" ++ toString (g.cg.yosysOf (g.stemCount + j)) ++ ":branch:" ++ n.instanceName ++
      ":" ++ q, ?_, .inr ⟨j, m, b, n, q, rfl, hj, hy, hkey, hq, ?_⟩⟩
    · simp [canonicalSiteKey, Nat.not_le.2 hi, hsite, hinst, hpin]
    · simp only [String.toList_append, List.append_assoc]
      rfl

/-- **The keys are all different.** -/
theorem canonicalSiteKey_inj (hff : g.FfPinsDeclared) (hnames : g.SitesNamed) {j : CompiledNetIndex}
    (hi : i < g.cg.netCount) (hj : j < g.cg.netCount)
    (h : canonicalSiteKey g.cg i = canonicalSiteKey g.cg j) : i = j := by
  have hinj : ∀ {a b : ℕ} {y : YosysNetID}, g.low.index.c2y[a]? = some y →
      g.low.index.c2y[b]? = some y → a = b := fun ha hb =>
    Option.some.inj (((g.index_valid _ _).2 ha).symm.trans ((g.index_valid _ _).2 hb))
  obtain ⟨key, hkey, hcase⟩ := canonicalSiteKey_cases hff hnames hi
  obtain ⟨key', hkey', hcase'⟩ := canonicalSiteKey_cases hff hnames hj
  rw [hkey, hkey'] at h
  obtain rfl := Except.ok.inj h
  rcases hcase with ⟨-, hy, hlist⟩ | ⟨a, m, b, n, q, rfl, hp, hy, hb, hq, hlist⟩ <;>
    rcases hcase' with ⟨-, hy', hlist'⟩ | ⟨a', m', b', n', q', rfl, hp', hy', hb', hq', hlist'⟩
  · obtain ⟨heq, -⟩ := key_inj (hlist.symm.trans hlist')
    exact hinj hy (heq ▸ hy')
  · exact absurd (key_inj (hlist.symm.trans hlist')).2 (by simp)
  · exact absurd (key_inj (hlist.symm.trans hlist')).2 (by simp)
  · obtain ⟨heq, hrest⟩ := key_inj (hlist.symm.trans hlist')
    obtain rfl := hinj hy (heq ▸ hy')
    obtain ⟨hn, y, hpin, -⟩ := hq
    obtain ⟨hn', y', hpin', -⟩ := hq'
    obtain ⟨hinst, hpins⟩ := Lib.append_sep_inj_right (hnames.named n hn q y hpin).2.2
      (hnames.named n' hn' q' y' hpin').2.2 (List.append_cancel_left hrest)
    obtain rfl := hnames.distinct n hn n' hn' ⟨y, q, hpin⟩ ⟨y', q', hpin'⟩ (String.toList_inj.1 hinst)
    obtain rfl := String.toList_inj.1 hpins
    rw [plan_inj hp hp' rfl (hb.trans hb'.symm) (by rw [hb]; exact Option.some_ne_none _)]

/-- **Every consumer pin has its own fault site**, when no node has two input pins on
one net: with another pin on its net a pin is read through a branch of its own, and
no two nets have the same key. -/
theorem pinSites (g : CachedGraph) (huntied : g.Untied) (hwired : g.PinsWired)
    (hff : g.FfPinsDeclared) (hnames : g.SitesNamed) :
    (∀ n p n' p' m, g.PinOn n p m → g.PinOn n' p' m → (n.id, p) ≠ (n'.id, p') →
      ∃ b, g.Carries b n p m) ∧
    (∀ i < g.cg.netCount, ∃ key, canonicalSiteKey g.cg i = .ok key) ∧
    ∀ i < g.cg.netCount, ∀ j < g.cg.netCount,
      canonicalSiteKey g.cg i = canonicalSiteKey g.cg j → i = j := by
  refine ⟨fun n p n' p' m hpin hpin' hne => ?_, fun i hi => ?_, fun i hi j hj h => ?_⟩
  · exact exists_carries huntied hwired hff hnames hpin
      (wide_of_pinOn huntied hwired hpin hpin' hne)
  · obtain ⟨key, hkey, -⟩ := canonicalSiteKey_cases hff hnames hi
    exact ⟨key, hkey⟩
  · exact canonicalSiteKey_inj hff hnames hi hj h

/-- An input `a` that an inverter and a flip-flop read. -/
def forkedInput : CachedGraph :=
  .load (.ofCells [("a", 2), ("ck", 3)] [("y", 4), ("q", 5)]
      [("g", .ofPins "INV" [("A", 2), ("Y", 4)]),
       ("f", .ofPins "DFF" [("D", 2), ("CK", 3), ("Q", 5)])])
    smallCells "fail" ∅ (by decide +kernel) (by decide +kernel)

theorem forkedInput_pinSites :
    (∀ n p n' p' m, forkedInput.PinOn n p m → forkedInput.PinOn n' p' m → (n.id, p) ≠ (n'.id, p') →
      ∃ b, forkedInput.Carries b n p m) ∧
    (∀ i < forkedInput.cg.netCount, ∃ key, canonicalSiteKey forkedInput.cg i = .ok key) ∧
    ∀ i < forkedInput.cg.netCount, ∀ j < forkedInput.cg.netCount,
      canonicalSiteKey forkedInput.cg i = canonicalSiteKey forkedInput.cg j → i = j :=
  forkedInput.pinSites (by decide +kernel) (by decide +kernel) (by decide +kernel)
    (by decide +kernel)

/-- An AND gate with both its pins on the input `a`. -/
def tiedPins : CachedGraph :=
  .load (.ofCells [("a", 2)] [("y", 3)] [("g", .ofPins "AND2" [("A", 2), ("B", 2), ("Y", 3)])])
    smallCells "fail" ∅ (by decide +kernel) (by decide +kernel)

/-- Both slots of the gate read the one branch that is named after the pin `A`, and
no net is the site of the pin `B`. -/
theorem tiedPins_shared : tiedPins.PinsWired ∧ tiedPins.FfPinsDeclared ∧ tiedPins.SitesNamed ∧
    (∃ n ∈ tiedPins.ng.nodes, n.inputPins["A"]? = some 2 ∧ n.inputPins["B"]? = some 2) ∧
    (∃ sn ∈ tiedPins.split.nodes, sn.node.type = .AND2 ∧ sn.node.ins 0 = some 2 ∧
      sn.node.ins 1 = some 2) ∧
    tiedPins.cg.netSites 2 = { kind := .BRANCH, consumerInstance := "g", inputPin := "A" } ∧
    ∀ i < tiedPins.cg.netCount, (tiedPins.cg.netSites i).inputPin ≠ "B" := by
  decide +kernel

end CachedGraph

end FaultFlow
