/-
# What branch splitting does

A net with two or more consumer slots (`Wide`) is read through branches after
the split: every slot on it reads a branch, a buffer from the net, one level
below its consumer (`SplitSpec.node`).  A net with one consumer is read as
before.  The outputs, types and levels of the other nodes do not change.

The groups of one stem take up all its edges (`branchGroups_spec`), and the
consumers of one group stand on one level, being outputs of one cell.
-/

import FaultFlow.IR.LoweringFacts

namespace FaultFlow

open Std (TreeMap)

namespace GraphCompiler

/-- The net has two or more consumer slots. -/
def Wide (nodes : List LoweredNode) (stem : CompiledNetIndex) : Prop :=
  2 ≤ (fanoutEdges nodes stem).length

instance (nodes : List LoweredNode) (stem : CompiledNetIndex) : Decidable (Wide nodes stem) :=
  inferInstanceAs (Decidable (2 ≤ _))

variable {nodes : List LoweredNode} {stem : CompiledNetIndex} {e : FanoutEdge}

theorem mem_fanoutEdges :
    e ∈ fanoutEdges nodes stem ↔
      ∃ ln, nodes[e.nodeIdx]? = some ln ∧ ln.node.ins e.slot = some stem := by
  obtain ⟨i, s⟩ := e
  simp only [fanoutEdges, List.mem_flatMap, List.mem_map, List.mem_filter, List.mem_finRange,
    true_and, decide_eq_true_eq, FanoutEdge.mk.injEq, Prod.exists, List.mem_zipIdx_iff_getElem?]
  constructor
  · rintro ⟨ln, k, hk, s', hs', rfl, rfl⟩
    exact ⟨ln, hk, hs'⟩
  · rintro ⟨ln, hk, hs⟩
    exact ⟨ln, i, hk, s, hs, rfl, rfl⟩

/-! ## The groups of a stem -/

/-- The edges of a group are a single edge, or all enter a node of one owner. -/
def GroupOf (site : FanoutEdge → Option (NormNode × String)) (g : BranchGroup) : Prop :=
  match g.key with
  | some k => ∀ e ∈ g.edges, ∃ n, site e = some n ∧ n.1.id = k.1
  | none => ∃ e, g.edges = [e]

/-- The groups after the edges `visited`. -/
structure GroupInv (site : FanoutEdge → Option (NormNode × String)) (visited : List FanoutEdge)
    (groups : List BranchGroup) : Prop where
  nonempty : ∀ g ∈ groups, g.edges ≠ []
  sub : ∀ g ∈ groups, ∀ e ∈ g.edges, e ∈ visited
  site : ∀ g ∈ groups, GroupOf site g
  cover : ∀ e ∈ visited, ∃ g ∈ groups, e ∈ g.edges

section Groups

variable {site : FanoutEdge → Option (NormNode × String)} {visited : List FanoutEdge}
  {groups : List BranchGroup}

/-- An edge opens a group. -/
theorem GroupInv.opened (h : GroupInv site visited groups) {g : BranchGroup} {e : FanoutEdge}
    (hg : g.edges = [e]) (hsite : GroupOf site g) :
    GroupInv site (visited ++ [e]) (groups ++ [g]) := by
  refine ⟨fun g' hg' => ?_, fun g' hg' e' he' => ?_, fun g' hg' => ?_, fun e' he' => ?_⟩
  · rcases List.mem_append.1 hg' with hg' | hg'
    · exact h.nonempty g' hg'
    · obtain rfl := List.mem_singleton.1 hg'
      simp [hg]
  · rcases List.mem_append.1 hg' with hg' | hg'
    · exact List.mem_append_left _ (h.sub g' hg' e' he')
    · obtain rfl := List.mem_singleton.1 hg'
      rw [hg] at he'
      exact List.mem_append_right _ he'
  · rcases List.mem_append.1 hg' with hg' | hg'
    · exact h.site g' hg'
    · obtain rfl := List.mem_singleton.1 hg'
      exact hsite
  · rcases List.mem_append.1 he' with he' | he'
    · obtain ⟨g', hg', hm⟩ := h.cover e' he'
      exact ⟨g', List.mem_append_left _ hg', hm⟩
    · obtain rfl := List.mem_singleton.1 he'
      exact ⟨g, by simp, by simp [hg]⟩

/-- An edge joins the groups of its key. -/
theorem GroupInv.joined (h : GroupInv site visited groups) {e : FanoutEdge} {n : NormNode × String}
    (hn : site e = some n) (hany : ∃ g ∈ groups, g.key = some (n.1.id, n.2)) :
    GroupInv site (visited ++ [e]) (groups.map fun g =>
      if g.key = some (n.1.id, n.2) then { g with edges := g.edges ++ [e] } else g) := by
  refine ⟨fun g' hg' => ?_, fun g' hg' e' he' => ?_, fun g' hg' => ?_, fun e' he' => ?_⟩
  · obtain ⟨g, hg, rfl⟩ := List.mem_map.1 hg'
    split
    · simp
    · exact h.nonempty g hg
  · obtain ⟨g, hg, rfl⟩ := List.mem_map.1 hg'
    split at he'
    · rcases List.mem_append.1 he' with he' | he'
      · exact List.mem_append_left _ (h.sub g hg e' he')
      · exact List.mem_append_right _ he'
    · exact List.mem_append_left _ (h.sub g hg e' he')
  · obtain ⟨g, hg, rfl⟩ := List.mem_map.1 hg'
    split
    · rename_i hk
      have hs := h.site g hg
      simp only [GroupOf, hk] at hs ⊢
      intro e' he'
      rcases List.mem_append.1 he' with he' | he'
      · exact hs e' he'
      · rw [List.mem_singleton.1 he']
        exact ⟨n, hn, rfl⟩
    · exact h.site g hg
  · rcases List.mem_append.1 he' with he' | he'
    · obtain ⟨g, hg, hm⟩ := h.cover e' he'
      refine ⟨_, List.mem_map_of_mem hg, ?_⟩
      split
      · exact List.mem_append_left _ hm
      · exact hm
    · obtain ⟨g, hg, hk⟩ := hany
      refine ⟨_, List.mem_map_of_mem hg, ?_⟩
      rw [if_pos hk]
      exact List.mem_append_right _ he'

theorem GroupInv.addEdge (h : GroupInv site visited groups) (e : FanoutEdge) :
    GroupInv site (visited ++ [e]) (addEdge site groups e) := by
  unfold GraphCompiler.addEdge
  split
  · rename_i norm pin hs
    split
    · rename_i hany
      exact h.joined hs (by simpa using hany)
    · exact h.opened rfl fun e' he' => ⟨(norm, pin), (List.mem_singleton.1 he') ▸ hs, rfl⟩
  · exact h.opened rfl ⟨e, rfl⟩

end Groups

/-- **The groups of a wide stem.** -/
theorem branchGroups_spec (ng : NormalizedGraph) (y2c : TreeMap YosysNetID CompiledNetIndex)
    (nodes : List LoweredNode) (stem : CompiledNetIndex) :
    GroupInv (edgeSite ng y2c nodes stem)
      (if Wide nodes stem then fanoutEdges nodes stem else []) (branchGroups ng y2c nodes stem) := by
  unfold branchGroups
  by_cases hw : Wide nodes stem
  · rw [if_pos hw, if_neg (by unfold Wide at hw; omega)]
    exact Lib.foldl_visited (GroupInv (edgeSite ng y2c nodes stem))
      ⟨by simp, by simp, by simp, by simp⟩ fun _ e _ _ _ h => h.addEdge e
  · rw [if_neg hw, if_pos (by unfold Wide at hw; omega)]
    exact ⟨by simp, by simp, by simp, by simp⟩

/-- The consumers of one owner stand on one level. -/
def OwnerLevels (nodes : List LoweredNode) : Prop :=
  ∀ a ∈ nodes, ∀ b ∈ nodes, a.owner ≠ none → a.owner = b.owner → a.level = b.level

variable {ng : NormalizedGraph} {y2c : TreeMap YosysNetID CompiledNetIndex} {ln : LoweredNode}

theorem owner_of_edgeSite {n : NormNode × String} (h : edgeSite ng y2c nodes stem e = some n)
    (hln : nodes[e.nodeIdx]? = some ln) : ln.owner = some n.1.id := by
  simp only [edgeSite, hln, Option.bind_eq_bind, Option.bind_some] at h
  obtain ⟨norm, hnorm, h⟩ := Option.bind_eq_some_iff.1 h
  split at h
  · cases h
  · cases h
    simpa using List.find?_some hnorm

/-- All consumers of a group stand on the level its branch is placed below. -/
theorem consumerLevel_eq (hlevels : OwnerLevels nodes) {g : BranchGroup}
    (hg : GroupOf (edgeSite ng y2c nodes stem) g) (hsub : ∀ e ∈ g.edges, e ∈ fanoutEdges nodes stem)
    (he : e ∈ g.edges) (hln : nodes[e.nodeIdx]? = some ln) : consumerLevel nodes g = ln.level := by
  obtain ⟨e₀, es, hes⟩ := List.exists_cons_of_ne_nil (List.ne_nil_of_mem he)
  obtain ⟨ln₀, hln₀, -⟩ := mem_fanoutEdges.1 (hsub e₀ (by simp [hes]))
  have hlevel : consumerLevel nodes g = ln₀.level := by
    simp [consumerLevel, hes, hln₀]
  rw [hlevel]
  unfold GroupOf at hg
  split at hg
  · obtain ⟨n₀, hs₀, hid₀⟩ := hg e₀ (by simp [hes])
    obtain ⟨n, hs, hid⟩ := hg e he
    have ho₀ := owner_of_edgeSite hs₀ hln₀
    have ho := owner_of_edgeSite hs hln
    refine hlevels ln₀ (List.mem_of_getElem? hln₀) ln (List.mem_of_getElem? hln) (by simp [ho₀]) ?_
    rw [ho₀, ho, hid₀, hid]
  · obtain ⟨e', he'⟩ := hg
    rw [hes, List.cons.injEq] at he'
    obtain ⟨rfl, rfl⟩ := he'
    rw [hes, List.mem_singleton] at he
    subst he
    rw [hln₀] at hln
    cases hln
    rfl

/-! ## The branches -/

/-- The node with other inputs. -/
def LoweredNode.withIns (ln : LoweredNode) (ins : Fin 6 → Option CompiledNetIndex) : LoweredNode :=
  { ln with node := { ln.node with ins := ins } }

/-- The buffer of a branch. -/
def branchBuf (stem branch : CompiledNetIndex) (level : Nat) : LoweredNode :=
  { node := { type := .BUF, ins := Function.update (fun _ => none) 0 (some stem), out := branch }
    level := level
    owner := none }

theorem branchBuf_reads {stem branch : CompiledNetIndex} {level : Nat} {i : CompiledNetIndex} :
    (branchBuf stem branch level).node.Reads i ↔ i = stem := by
  constructor
  · rintro ⟨s, hs⟩
    by_cases h0 : s = 0
    · subst h0
      simpa [branchBuf, eq_comm] using hs
    · simp [branchBuf, h0] at hs
  · rintro rfl
    exact ⟨0, by simp [branchBuf]⟩

/-- The rewired slots read the branch, the others what they read. -/
theorem getElem?_foldl_rewire (branch : CompiledNetIndex) (edges : List FanoutEdge)
    (nodes : List LoweredNode) (i : ℕ) :
    (edges.foldl (rewire branch) nodes)[i]? = nodes[i]?.map fun ln =>
      LoweredNode.withIns ln fun s => if ⟨i, s⟩ ∈ edges then some branch else ln.node.ins s := by
  induction edges generalizing nodes with
  | nil => simp [LoweredNode.withIns]
  | cons e edges ih =>
    obtain ⟨k, t⟩ := e
    rw [List.foldl_cons, ih, rewire, List.getElem?_modify]
    cases nodes[i]? with
    | none => simp
    | some ln =>
      by_cases hk : k = i
      · subst hk
        simp only [if_true, Option.map_eq_map, Option.map_some, LoweredNode.withIns]
        congr 3
        funext s
        by_cases hs : s = t
        · simp [hs]
        · simp [hs]
      · have : ∀ s, (⟨i, s⟩ : FanoutEdge) ∈ ⟨k, t⟩ :: edges ↔ ⟨i, s⟩ ∈ edges := by
          intro s
          simp [Ne.symm hk]
        simp [hk, this]

theorem length_foldl_rewire (branch : CompiledNetIndex) (edges : List FanoutEdge)
    (nodes : List LoweredNode) : (edges.foldl (rewire branch) nodes).length = nodes.length := by
  induction edges generalizing nodes with
  | nil => rfl
  | cons e edges ih => rw [List.foldl_cons, ih, rewire, List.length_modify]

section Split

variable (nodes) (c2y : List YosysNetID)

/-- A stem and a group of its edges. -/
structure Planned (p : CompiledNetIndex × BranchGroup) : Prop where
  lt : p.1 < c2y.length
  nonempty : p.2.edges ≠ []
  sub : ∀ e ∈ p.2.edges, e ∈ fanoutEdges nodes p.1

/-- The splitting after the groups `done`. -/
structure SplitInv (done : List (CompiledNetIndex × BranchGroup)) (st : Splitting) : Prop where
  length_nodes : st.nodes.length = nodes.length + done.length
  length_c2y : st.c2y.length = c2y.length + done.length
  node : ∀ i ln, nodes[i]? = some ln → ∃ ins, st.nodes[i]? = some (LoweredNode.withIns ln ins) ∧
    ∀ s, (ins s = ln.node.ins s ∧ ∀ p ∈ done, ⟨i, s⟩ ∉ p.2.edges) ∨
      ∃ j p, done[j]? = some p ∧ ⟨i, s⟩ ∈ p.2.edges ∧ ins s = some (c2y.length + j)
  branch : ∀ j p, done[j]? = some p → st.nodes[nodes.length + j]? =
    some (branchBuf p.1 (c2y.length + j) (consumerLevel nodes p.2 - 1))
  stem : ∀ i < c2y.length, st.c2y[i]? = c2y[i]?
  site : ∀ j p, done[j]? = some p → st.c2y[c2y.length + j]? = c2y[p.1]?

variable {nodes c2y} {p : CompiledNetIndex × BranchGroup}
  {done : List (CompiledNetIndex × BranchGroup)} {st : Splitting} {index : NetIndex}

/-- The split leaves the levels of the consumers as they are. -/
theorem SplitInv.consumerLevel_eq (h : SplitInv nodes c2y done st) (hp : Planned nodes c2y p) :
    consumerLevel st.nodes p.2 = consumerLevel nodes p.2 := by
  obtain ⟨e, es, hes⟩ := List.exists_cons_of_ne_nil hp.nonempty
  obtain ⟨ln, hln, -⟩ := mem_fanoutEdges.1 (hp.sub e (by simp [hes]))
  obtain ⟨ins, hins, -⟩ := h.node e.nodeIdx ln hln
  simp [consumerLevel, hes, hln, hins, LoweredNode.withIns]

/-- One more branch. -/
theorem SplitInv.addBranch (h : SplitInv nodes c2y done st) (hp : Planned nodes c2y p) :
    SplitInv nodes c2y (done ++ [p]) (addBranch p.1 st p.2) := by
  have hidx : ∀ e ∈ p.2.edges, e.nodeIdx < nodes.length := by
    intro e he
    obtain ⟨ln, hln, -⟩ := mem_fanoutEdges.1 (hp.sub e he)
    exact (List.getElem?_eq_some_iff.1 hln).1
  have hnodes : ∀ i, (GraphCompiler.addBranch p.1 st p.2).nodes[i]? =
      (st.nodes ++ [branchBuf p.1 st.c2y.length (consumerLevel st.nodes p.2 - 1)])[i]?.map fun ln =>
        LoweredNode.withIns ln fun s =>
          if ⟨i, s⟩ ∈ p.2.edges then some st.c2y.length else ln.node.ins s :=
    getElem?_foldl_rewire _ _ _
  have hold : ∀ j q, (done ++ [p])[j]? = some q →
      done[j]? = some q ∨ (j = done.length ∧ q = p) := by
    intro j q hq
    rcases Nat.lt_or_ge j done.length with hj | hj
    · rw [List.getElem?_append_left hj] at hq
      exact .inl hq
    · rw [List.getElem?_append_right hj, List.getElem?_singleton] at hq
      split at hq
      · exact .inr ⟨by omega, (Option.some.inj hq).symm⟩
      · cases hq
  refine ⟨?_, ?_, fun i ln hln => ?_, fun j q hq => ?_, fun i hi => ?_, fun j q hq => ?_⟩
  · simp [GraphCompiler.addBranch, length_foldl_rewire, h.length_nodes, Nat.add_assoc]
  · simp [GraphCompiler.addBranch, h.length_c2y, Nat.add_assoc]
  · obtain ⟨ins, hins, hslots⟩ := h.node i ln hln
    have hi : i < st.nodes.length := (List.getElem?_eq_some_iff.1 hins).1
    refine ⟨_, by rw [hnodes, List.getElem?_append_left hi, hins]; rfl, fun s => ?_⟩
    by_cases hs : (⟨i, s⟩ : FanoutEdge) ∈ p.2.edges
    · right
      exact ⟨done.length, p, by simp, hs, by rw [if_pos hs, h.length_c2y]⟩
    · rw [if_neg hs]
      rcases hslots s with ⟨heq, hnot⟩ | ⟨j, q, hq, hmem, heq⟩
      · left
        refine ⟨heq, fun q hq => ?_⟩
        rcases List.mem_append.1 hq with hq | hq
        · exact hnot q hq
        · rwa [List.mem_singleton.1 hq]
      · right
        refine ⟨j, q, ?_, hmem, heq⟩
        rw [List.getElem?_append_left (List.getElem?_eq_some_iff.1 hq).1]
        exact hq
  · have hout : ∀ s, (⟨nodes.length + j, s⟩ : FanoutEdge) ∉ p.2.edges := by
      intro s hs
      have : nodes.length + j < nodes.length := hidx _ hs
      omega
    rw [hnodes]
    simp only [hout, if_false]
    rcases hold j q hq with hq | ⟨rfl, rfl⟩
    · have hb := h.branch j q hq
      rw [List.getElem?_append_left (List.getElem?_eq_some_iff.1 hb).1, hb]
      rfl
    · rw [List.getElem?_append_right (by rw [h.length_nodes]), h.length_nodes, Nat.sub_self,
        h.length_c2y, h.consumerLevel_eq hp]
      rfl
  · have hi' : i < st.c2y.length := by rw [h.length_c2y]; omega
    simp only [GraphCompiler.addBranch, List.getElem?_append_left hi']
    exact h.stem i hi
  · rcases hold j q hq with hq | ⟨rfl, rfl⟩
    · have hj : c2y.length + j < st.c2y.length := by
        have := (List.getElem?_eq_some_iff.1 hq).1
        rw [h.length_c2y]
        omega
      simp only [GraphCompiler.addBranch, List.getElem?_append_left hj]
      exact h.site j q hq
    · have hstem := h.stem q.1 hp.lt
      simp only [GraphCompiler.addBranch, ← h.length_c2y, List.getElem?_append_right le_rfl,
        Nat.sub_self, List.getElem?_cons_zero, List.getD_eq_getElem?_getD, hstem]
      rw [List.getElem?_eq_getElem hp.lt]
      rfl

variable (nodes c2y)

/-- The `j`-th branch is a buffer from `stem`. -/
structure BranchAt (split : Splitting) (j : ℕ) (stem : CompiledNetIndex) (level : ℕ) : Prop where
  buf : split.nodes[nodes.length + j]? = some (branchBuf stem (c2y.length + j) level)
  site : split.c2y[c2y.length + j]? = c2y[stem]?

/-- **What the split leaves.**  `consumer j` is the level of the consumers of the
`j`-th branch. -/
structure SplitSpec (consumer : ℕ → ℕ) (split : Splitting) : Prop where
  le : nodes.length ≤ split.nodes.length
  count : split.c2y.length = c2y.length + (split.nodes.length - nodes.length)
  node : ∀ (i : ℕ) (ln : LoweredNode), nodes[i]? = some ln →
    ∃ ins, split.nodes[i]? = some (LoweredNode.withIns ln ins) ∧ ∀ s,
      (ins s = ln.node.ins s ∧ ∀ m, ln.node.ins s = some m → ¬ Wide nodes m) ∨
      ∃ (m j : ℕ), ln.node.ins s = some m ∧ Wide nodes m ∧ ins s = some (c2y.length + j) ∧
        BranchAt nodes c2y split j m (ln.level - 1) ∧ ln.level = consumer j
  branch : ∀ j, nodes.length + j < split.nodes.length → ∃ (m i : ℕ) (ln : LoweredNode) (s : Fin 6),
    nodes[i]? = some ln ∧ ln.node.ins s = some m ∧ Wide nodes m ∧
      BranchAt nodes c2y split j m (ln.level - 1) ∧ ln.level = consumer j
  stem : ∀ i < c2y.length, split.c2y[i]? = c2y[i]?

variable {nodes c2y}

/-- The groups of all stems, in order. -/
def plan (ng : NormalizedGraph) (index : NetIndex) (nodes : List LoweredNode) :
    List (CompiledNetIndex × BranchGroup) :=
  (List.range index.c2y.length).flatMap fun stem =>
    (branchGroups ng index.y2c nodes stem).map fun g => (stem, g)

/-- The level of the consumers of a branch. -/
def branchConsumer (ng : NormalizedGraph) (index : NetIndex) (nodes : List LoweredNode) (j : ℕ) : ℕ :=
  (((plan ng index nodes)[j]?).map fun p => consumerLevel nodes p.2).getD 0

theorem splitFanoutBranches_eq (ng : NormalizedGraph) (index : NetIndex)
    (nodes : List LoweredNode) :
    splitFanoutBranches ng index nodes =
      (plan ng index nodes).foldl (fun st p => addBranch p.1 st p.2)
        { nodes := nodes, c2y := index.c2y } := by
  simp only [splitFanoutBranches, plan, List.foldl_flatMap, List.foldl_map]

theorem mem_plan : p ∈ plan ng index nodes ↔
      p.1 < index.c2y.length ∧ p.2 ∈ branchGroups ng index.y2c nodes p.1 := by
  obtain ⟨stem, g⟩ := p
  simp only [plan, List.mem_flatMap, List.mem_range, List.mem_map, Prod.mk.injEq]
  constructor
  · rintro ⟨_, h, _, hg, rfl, rfl⟩
    exact ⟨h, hg⟩
  · rintro ⟨h, hg⟩
    exact ⟨stem, h, g, hg, rfl, rfl⟩

theorem wide_of_mem_plan (hp : p ∈ plan ng index nodes) :
    Wide nodes p.1 ∧ Planned nodes index.c2y p ∧
      GroupOf (edgeSite ng index.y2c nodes p.1) p.2 := by
  obtain ⟨hlt, hg⟩ := mem_plan.1 hp
  have hinv := branchGroups_spec ng index.y2c nodes p.1
  have hw : Wide nodes p.1 := by
    by_contra hw
    rw [if_neg hw] at hinv
    obtain ⟨e, es, hes⟩ := List.exists_cons_of_ne_nil (hinv.nonempty p.2 hg)
    exact List.not_mem_nil (hinv.sub p.2 hg e (by simp [hes]))
  rw [if_pos hw] at hinv
  exact ⟨hw, ⟨hlt, hinv.nonempty p.2 hg, hinv.sub p.2 hg⟩, hinv.site p.2 hg⟩

/-- The split is done when every group of the plan has its branch. -/
theorem splitInv_plan (ng : NormalizedGraph) (index : NetIndex) :
    SplitInv nodes index.c2y (plan ng index nodes) (splitFanoutBranches ng index nodes) := by
  rw [splitFanoutBranches_eq]
  refine Lib.foldl_visited (SplitInv nodes index.c2y)
    ⟨by simp, by simp, fun i ln hln => ⟨ln.node.ins, hln, fun s => .inl ⟨rfl, by simp⟩⟩,
      by simp, by simp, by simp⟩ ?_
  intro pre p post st hl h
  exact h.addBranch (wide_of_mem_plan (by rw [hl]; simp)).2.1

/-- **The split of a whole graph.** -/
theorem splitFanoutBranches_spec (ng : NormalizedGraph) (index : NetIndex)
    (hlevels : OwnerLevels nodes)
    (hnets : ∀ ln ∈ nodes, ∀ s m, ln.node.ins s = some m → m < index.c2y.length) :
    SplitSpec nodes index.c2y (branchConsumer ng index nodes)
      (splitFanoutBranches ng index nodes) := by
  have hinv : SplitInv nodes index.c2y (plan ng index nodes) (splitFanoutBranches ng index nodes) :=
    splitInv_plan ng index
  have hbranch : ∀ j p, (plan ng index nodes)[j]? = some p → ∀ e ∈ p.2.edges, ∀ ln,
      nodes[e.nodeIdx]? = some ln →
      BranchAt nodes index.c2y (splitFanoutBranches ng index nodes) j p.1 (ln.level - 1) ∧
        ln.level = branchConsumer ng index nodes j := by
    intro j p hp e he ln hln
    obtain ⟨-, hplan, hgroup⟩ := wide_of_mem_plan (List.mem_of_getElem? hp)
    rw [← consumerLevel_eq hlevels hgroup hplan.sub he hln]
    exact ⟨⟨hinv.branch j p hp, hinv.site j p hp⟩, by rw [branchConsumer, hp]; rfl⟩
  refine ⟨?_, ?_, fun i ln hln => ?_, fun j hj => ?_, hinv.stem⟩
  · rw [hinv.length_nodes]
    omega
  · rw [hinv.length_nodes, hinv.length_c2y]
    omega
  · obtain ⟨ins, hins, hslots⟩ := hinv.node i ln hln
    refine ⟨ins, hins, fun s => ?_⟩
    rcases hslots s with ⟨heq, hnot⟩ | ⟨j, p, hp, he, heq⟩
    · refine .inl ⟨heq, fun m hm hw => ?_⟩
      -- a wide net's edges are all in its groups
      have hgroups := branchGroups_spec ng index.y2c nodes m
      rw [if_pos hw] at hgroups
      obtain ⟨g, hg, he⟩ := hgroups.cover ⟨i, s⟩ (mem_fanoutEdges.2 ⟨ln, hln, hm⟩)
      exact hnot (m, g) (mem_plan.2 ⟨hnets ln (List.mem_of_getElem? hln) s m hm, hg⟩) he
    · obtain ⟨hw, hplan, -⟩ := wide_of_mem_plan (List.mem_of_getElem? hp)
      obtain ⟨ln', hln', hm⟩ := mem_fanoutEdges.1 (hplan.sub _ he)
      rw [hln] at hln'
      cases hln'
      exact .inr ⟨p.1, j, hm, hw, heq, hbranch j p hp _ he ln hln⟩
  · have hj' : j < (plan ng index nodes).length := by
      rw [hinv.length_nodes] at hj
      omega
    have hp := List.getElem?_eq_getElem hj'
    obtain ⟨hw, hplan, -⟩ := wide_of_mem_plan (List.mem_of_getElem? hp)
    obtain ⟨e, es, hes⟩ := List.exists_cons_of_ne_nil hplan.nonempty
    have he : e ∈ ((plan ng index nodes)[j]).2.edges := by simp [hes]
    obtain ⟨ln, hln, hm⟩ := mem_fanoutEdges.1 (hplan.sub e he)
    exact ⟨_, e.nodeIdx, ln, e.slot, hln, hm, hw, hbranch j _ hp e he ln hln⟩

end Split

end GraphCompiler

end FaultFlow
