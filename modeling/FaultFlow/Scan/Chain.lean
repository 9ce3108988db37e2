/-
# Scan chain extraction

`src/core/scan/scan_chain.cpp`.  `extract_scan_chains` reads the chains off a netlist: a
scan flip-flop shifts into the one whose scan input is its Q net.  The walk from a flip-flop
that none shifts into ends within the number of flip-flops, and extraction succeeds exactly
when the flip-flops fall into paths from an input to an output (`extractScanChains_spec`).

The loop takes fuel here; `Stop.fuel` says that it was still running.
-/

import FaultFlow.IR.GraphCache
import FaultFlow.Lib.Maps
import FaultFlow.Lib.Paths

namespace FaultFlow

open Lib
open Std (TreeMap TreeSet)

/-- A graph with its nodes in the order of their ids, the keys of `ng.nodes`. -/
structure KeyedGraph extends NormalizedGraph where
  sorted : (nodes.map NormNode.id).Pairwise (· < ·)

/-- A compiled graph numbers its nodes in their order. -/
def CachedGraph.keyed (g : CachedGraph) : KeyedGraph where
  toNormalizedGraph := g.ng
  sorted := by
    rw [g.levelized.inv.ids]
    exact List.pairwise_lt_range'

namespace Scan.Extraction

/-- `ScanCell`. -/
structure ScanCell where
  nodeId : ℕ := 0
  scanInNet : YosysNetID := -1
  scanEnableNet : YosysNetID := -1
  qNet : YosysNetID := -1
deriving DecidableEq, Repr

/-- `ScanChain`. -/
structure ScanChain where
  cells : List ScanCell := []
  scanInNet : YosysNetID := -1
  scanOutNet : YosysNetID := -1
deriving DecidableEq, Repr

/-- Why there are no chains: an exception, or the end of the fuel. -/
inductive Stop where
  | fuel
  | thrown (message : String)
deriving DecidableEq, Repr

variable (ng : NormalizedGraph)

/-- `scan_cells`. -/
def scanCells : List ScanCell :=
  ng.nodes.filterMap fun node =>
    if node.type ≠ .FF ∨ node.ffConfig.hasScan = false then none
    else some ⟨node.id, node.ffConfig.scanInNet, node.ffConfig.scanEnableNet,
      node.ffConfig.outputNet⟩

/-- The maps `by_node`, `node_by_scan_in` and `node_by_q`. -/
structure ChainIndex where
  byNode : TreeMap ℕ ScanCell := ∅
  nodeByScanIn : TreeMap YosysNetID ℕ := ∅
  nodeByQ : TreeMap YosysNetID ℕ := ∅

/-- One step of the loop that fills the maps. -/
def ChainIndex.add (ix : ChainIndex) (cell : ScanCell) : Except Stop ChainIndex :=
  if ix.nodeByScanIn.contains cell.scanInNet then
    .error (.thrown "multiple scan FFs share one scan input net")
  else if ix.nodeByQ.contains cell.qNet then
    .error (.thrown "multiple scan FFs share one Q net")
  else
    .ok { byNode := ix.byNode.insert cell.nodeId cell
          nodeByScanIn := ix.nodeByScanIn.insert cell.scanInNet cell.nodeId
          nodeByQ := ix.nodeByQ.insert cell.qNet cell.nodeId }

/-- The net is an input of the netlist. -/
def isPi (net : YosysNetID) : Bool := ng.nets.contains net && ng.PIs.contains net

/-- The net is an output of the netlist. -/
def isPo (net : YosysNetID) : Bool := ng.nets.contains net && ng.POs.contains net

/-- The inner loop: along the chain, from cell to cell. -/
def walk (ng : NormalizedGraph) (ix : ChainIndex) :
    ℕ → TreeSet ℕ → ScanChain → ℕ → Except Stop (TreeSet ℕ × ScanChain)
  | 0, _, _, _ => .error .fuel
  | fuel + 1, visited, chain, cur =>
    if visited.contains cur then .error (.thrown "scan chain extraction found a cycle")
    else
      match ix.byNode[cur]? with
      | none => .error (.thrown "map::at")
      | some cell =>
        if chain.cells.isEmpty && !isPi ng cell.scanInNet then
          .error (.thrown "scan chain root input is not a PI")
        else
          let chain := { chain with
            cells := chain.cells ++ [cell]
            scanInNet := if chain.cells.isEmpty then cell.scanInNet else chain.scanInNet }
          match ix.nodeByScanIn[cell.qNet]? with
          | none =>
            if !isPo ng cell.qNet then .error (.thrown "scan chain terminal output is not a PO")
            else .ok (visited.insert cur, { chain with scanOutNet := cell.qNet })
          | some next => walk ng ix fuel (visited.insert cur) chain next

/-- One step of the loop over the roots. -/
def walkRoot (ix : ChainIndex) (fuel : ℕ) (acc : TreeSet ℕ × List ScanChain) (root : ℕ) :
    Except Stop (TreeSet ℕ × List ScanChain) := do
  let r ← walk ng ix fuel acc.1 {} root
  return (r.1, acc.2 ++ [r.2])

/-- The cells whose scan input is no Q net, where the chains begin. -/
def rootCells (ix : ChainIndex) (cells : List ScanCell) : List ScanCell :=
  cells.filter fun cell => !ix.nodeByQ.contains cell.scanInNet

/-- `extract_scan_chains`. -/
def extractScanChains (fuel : ℕ) : Except Stop (List ScanChain) :=
  let cells := scanCells ng
  if cells.isEmpty then .ok []
  else do
    let ix ← cells.foldlM ChainIndex.add {}
    let roots := (rootCells ix cells).map ScanCell.nodeId
    if roots.isEmpty then .error (.thrown "scan chain extraction found a cycle and no root")
    else do
      let r ← roots.foldlM (walkRoot ng ix fuel) (∅, [])
      if r.1.size ≠ cells.length then
        .error (.thrown "disconnected scan FFs are not in any chain")
      else .ok r.2

/-! ## What extraction is for -/

/-- Cell `a` shifts into cell `b`.  A cell may shift into itself, which makes a ring of one. -/
def ShiftsInto (a b : ScanCell) : Prop := a.qNet = b.scanInNet

instance : DecidableRel ShiftsInto := fun a b => inferInstanceAs (Decidable (a.qNet = b.scanInNet))

/-- The cells have scan inputs and Q nets of their own, and are threaded on the paths, each from
an input to an output. -/
structure Threaded (ng : NormalizedGraph) (cells : List ScanCell) (paths : List (List ScanCell)) :
    Prop where
  scanIns : (cells.map ScanCell.scanInNet).Nodup
  qs : (cells.map ScanCell.qNet).Nodup
  splits : Splits cells ShiftsInto paths
  starts : ∀ p ∈ paths, ∀ c, p.head? = some c → isPi ng c.scanInNet = true
  ends : ∀ p ∈ paths, ∀ c, p.getLast? = some c → isPo ng c.qNet = true

/-- The nets of a chain are those of its first and of its last cell. -/
def ScanChain.Spans (chain : ScanChain) : Prop :=
  chain.cells.head?.map ScanCell.scanInNet = some chain.scanInNet ∧
    chain.cells.getLast?.map ScanCell.qNet = some chain.scanOutNet

/-! ## The maps -/

/-- What the maps hold of the cells. -/
structure ChainIndex.Holds (ix : ChainIndex) (cells : List ScanCell) : Prop where
  scanIns : (cells.map ScanCell.scanInNet).Nodup
  qs : (cells.map ScanCell.qNet).Nodup
  node : ∀ c ∈ cells, ix.byNode[c.nodeId]? = some c
  scanIn : ∀ c ∈ cells, ix.nodeByScanIn[c.scanInNet]? = some c.nodeId
  mem_scanIn : ∀ net, net ∈ ix.nodeByScanIn ↔ ∃ c ∈ cells, c.scanInNet = net
  mem_q : ∀ net, net ∈ ix.nodeByQ ↔ ∃ c ∈ cells, c.qNet = net

theorem ChainIndex.Holds.empty : ChainIndex.Holds {} [] where
  scanIns := List.nodup_nil
  qs := List.nodup_nil
  node := by simp
  scanIn := by simp
  mem_scanIn := by simp
  mem_q := by simp

variable {ix : ChainIndex} {c : ScanCell} {visited : TreeSet ℕ} {cells roots : List ScanCell}

/-- One cell more, whose nets are new. -/
theorem ChainIndex.Holds.add (h : ix.Holds cells) (hid : ∀ d ∈ cells, d.nodeId ≠ c.nodeId)
    (hsi : ∀ d ∈ cells, d.scanInNet ≠ c.scanInNet) (hq : ∀ d ∈ cells, d.qNet ≠ c.qNet) :
    ∃ ix', ix.add c = .ok ix' ∧ ix'.Holds (cells ++ [c]) := by
  have hsi' : c.scanInNet ∉ ix.nodeByScanIn := fun hmem => by
    obtain ⟨d, hd, heq⟩ := (h.mem_scanIn _).1 hmem
    exact hsi d hd heq
  have hq' : c.qNet ∉ ix.nodeByQ := fun hmem => by
    obtain ⟨d, hd, heq⟩ := (h.mem_q _).1 hmem
    exact hq d hd heq
  refine ⟨_, by simp [ChainIndex.add, hsi', hq']; rfl, ?_, ?_, ?_, ?_, ?_, ?_⟩
  · rw [List.map_append, List.nodup_append_comm]
    refine List.nodup_cons.2 ⟨fun hmem => ?_, h.scanIns⟩
    obtain ⟨d, hd, heq⟩ := List.mem_map.1 hmem
    exact hsi d hd heq
  · rw [List.map_append, List.nodup_append_comm]
    refine List.nodup_cons.2 ⟨fun hmem => ?_, h.qs⟩
    obtain ⟨d, hd, heq⟩ := List.mem_map.1 hmem
    exact hq d hd heq
  · intro d hd
    rcases List.mem_append.1 hd with hd | hd
    · rw [TreeMap.getElem?_insert, if_neg (by simpa using (hid d hd).symm), h.node d hd]
    · obtain rfl := List.mem_singleton.1 hd
      simp
  · intro d hd
    rcases List.mem_append.1 hd with hd | hd
    · rw [TreeMap.getElem?_insert, if_neg (by simpa using (hsi d hd).symm), h.scanIn d hd]
    · obtain rfl := List.mem_singleton.1 hd
      simp
  · intro net
    rw [TreeMap.mem_insert, h.mem_scanIn]
    simp [or_and_right, exists_or, or_comm]
  · intro net
    rw [TreeMap.mem_insert, h.mem_q]
    simp [or_and_right, exists_or, or_comm]

/-- A cell that shares a net with an earlier one. -/
theorem ChainIndex.Holds.add_eq_error (h : ix.Holds cells)
    (hshared : (∃ d ∈ cells, d.scanInNet = c.scanInNet) ∨ ∃ d ∈ cells, d.qNet = c.qNet) :
    ∃ message, ix.add c = .error (.thrown message) := by
  unfold ChainIndex.add
  split
  · exact ⟨_, rfl⟩
  · split
    · exact ⟨_, rfl⟩
    · rename_i hsi hq
      rcases hshared with hd | hd
      · exact absurd (TreeMap.mem_iff_contains.1 ((h.mem_scanIn _).2 hd)) hsi
      · exact absurd (TreeMap.mem_iff_contains.1 ((h.mem_q _).2 hd)) hq

variable {ng}

/-- The scan flip-flops are the nodes of type `FF` with a scan input, with their nets. -/
theorem mem_scanCells : c ∈ scanCells ng ↔ ∃ node ∈ ng.nodes, node.type = .FF ∧
    node.ffConfig.hasScan = true ∧ c = ⟨node.id, node.ffConfig.scanInNet,
      node.ffConfig.scanEnableNet, node.ffConfig.outputNet⟩ := by
  rw [scanCells, List.mem_filterMap]
  refine exists_congr fun node => and_congr_right fun _ => ?_
  split
  · rename_i hskip
    refine iff_of_false (by simp) fun ⟨htype, hscan, _⟩ => ?_
    rcases hskip with hskip | hskip
    · exact hskip htype
    · rw [hskip] at hscan
      cases hscan
  · rename_i hkeep
    rw [not_or, not_not, Bool.not_eq_false] at hkeep
    rw [Option.some_inj, eq_comm]
    exact ⟨fun heq => ⟨hkeep.1, hkeep.2, heq⟩, fun h => h.2.2⟩

/-- They stand in the order of their nodes. -/
theorem pairwise_nodeId (g : KeyedGraph) :
    (scanCells g.toNormalizedGraph).Pairwise fun a b => a.nodeId < b.nodeId := by
  rw [scanCells, List.pairwise_filterMap]
  refine (List.pairwise_map.1 g.sorted).imp fun {m n} hlt a ha b hb => ?_
  have hid : ∀ {n : NormNode} {a : ScanCell}, (if n.type ≠ .FF ∨ n.ffConfig.hasScan = false
      then none else some (⟨n.id, n.ffConfig.scanInNet, n.ffConfig.scanEnableNet,
        n.ffConfig.outputNet⟩ : ScanCell)) = some a → a.nodeId = n.id := by
    intro n a ha
    split at ha
    · cases ha
    · cases ha
      rfl
  rw [hid ha, hid hb]
  exact hlt

theorem nodup_of_nodeId (hids : cells.Pairwise fun a b => a.nodeId < b.nodeId) : cells.Nodup := by
  refine hids.imp ?_
  rintro a _ hlt rfl
  exact lt_irrefl _ hlt

theorem eq_of_nodeId (hids : cells.Pairwise fun a b => a.nodeId < b.nodeId) {a b : ScanCell}
    (ha : a ∈ cells) (hb : b ∈ cells) (hid : a.nodeId = b.nodeId) : a = b :=
  List.inj_on_of_nodup_map (List.pairwise_map.2 (hids.imp fun hlt => hlt.ne)) ha hb hid

/-- **The maps are filled when no net is shared**, and an exception is thrown otherwise. -/
theorem foldlM_add (hids : cells.Pairwise fun a b => a.nodeId < b.nodeId) :
    ((∃ ix, cells.foldlM ChainIndex.add {} = .ok ix ∧ ix.Holds cells) ∧
        (cells.map ScanCell.scanInNet).Nodup ∧ (cells.map ScanCell.qNet).Nodup) ∨
      ((∃ message, cells.foldlM ChainIndex.add {} = .error (.thrown message)) ∧
        ¬ ((cells.map ScanCell.scanInNet).Nodup ∧ (cells.map ScanCell.qNet).Nodup)) := by
  induction cells using List.reverseRecOn with
  | nil => exact .inl ⟨⟨{}, rfl, .empty⟩, List.nodup_nil, List.nodup_nil⟩
  | append_singleton cells c ih =>
    rw [List.pairwise_append] at hids
    rw [List.foldlM_append]
    have hnot : ¬ ((cells.map ScanCell.scanInNet).Nodup ∧ (cells.map ScanCell.qNet).Nodup) →
        ¬ (((cells ++ [c]).map ScanCell.scanInNet).Nodup ∧
          ((cells ++ [c]).map ScanCell.qNet).Nodup) := by
      rintro hnd ⟨hsi, hq⟩
      rw [List.map_append] at hsi hq
      exact hnd ⟨hsi.of_append_left, hq.of_append_left⟩
    rcases ih hids.1 with ⟨⟨ix, hix, hholds⟩, -⟩ | ⟨⟨message, herr⟩, hnd⟩
    · rw [hix]
      by_cases hshared : (∃ d ∈ cells, d.scanInNet = c.scanInNet) ∨ ∃ d ∈ cells, d.qNet = c.qNet
      · obtain ⟨message, herr⟩ := hholds.add_eq_error hshared
        refine .inr ⟨⟨message, by simp [bind, Except.bind, herr]⟩, ?_⟩
        rintro ⟨hsi, hq⟩
        rw [List.map_append, List.nodup_append] at hsi hq
        rcases hshared with ⟨d, hd, heq⟩ | ⟨d, hd, heq⟩
        · exact hsi.2.2 _ (List.mem_map_of_mem hd) c.scanInNet (by simp) heq
        · exact hq.2.2 _ (List.mem_map_of_mem hd) c.qNet (by simp) heq
      · obtain ⟨hsi, hq⟩ := not_or.1 hshared
        obtain ⟨ix', hadd, hholds'⟩ := hholds.add (c := c)
          (fun d hd => (hids.2.2 d hd c (by simp)).ne) (fun d hd heq => hsi ⟨d, hd, heq⟩)
          fun d hd heq => hq ⟨d, hd, heq⟩
        exact .inl ⟨⟨ix', by simp [bind, Except.bind, hadd, pure, Except.pure], hholds'⟩,
          hholds'.scanIns, hholds'.qs⟩
    · exact .inr ⟨⟨message, by simp [bind, Except.bind, herr]⟩, hnot hnd⟩

/-! ## The walk -/

/-- The cell that cell `a` shifts into. -/
def nextCell (cells : List ScanCell) (a : ScanCell) : Option ScanCell :=
  cells.find? fun b => ShiftsInto a b

/-- The path from a cell. -/
def cellPath (cells : List ScanCell) (a : ScanCell) : List ScanCell :=
  pathFrom (nextCell cells) (cells.length + 1) a

/-- A path as a chain, if it goes from an input to an output. -/
def chainOf (ng : NormalizedGraph) (p : List ScanCell) : Except Stop ScanChain :=
  if !isPi ng (p.headD {}).scanInNet then .error (.thrown "scan chain root input is not a PI")
  else if !isPo ng (p.getLastD {}).qNet then
    .error (.thrown "scan chain terminal output is not a PO")
  else .ok ⟨p, (p.headD {}).scanInNet, (p.getLastD {}).qNet⟩

/-- The ids of the cells, added to those visited. -/
def visit (visited : TreeSet ℕ) (p : List ScanCell) : TreeSet ℕ :=
  p.foldl (fun visited c => visited.insert c.nodeId) visited

variable {p : List ScanCell}

theorem mem_visit {id : ℕ} : id ∈ visit visited p ↔ id ∈ visited ∨ ∃ c ∈ p, c.nodeId = id := by
  induction p generalizing visited with
  | nil => simp [visit]
  | cons c p ih =>
    rw [show visit visited (c :: p) = visit (visited.insert c.nodeId) p from rfl, ih,
      mem_insert_iff]
    simp [or_left_comm, or_assoc]

theorem size_visit (hnew : ∀ c ∈ p, c.nodeId ∉ visited) (hp : (p.map ScanCell.nodeId).Nodup) :
    (visit visited p).size = visited.size + p.length := by
  induction p generalizing visited with
  | nil => simp [visit]
  | cons c p ih =>
    rw [List.map_cons, List.nodup_cons] at hp
    rw [show visit visited (c :: p) = visit (visited.insert c.nodeId) p from rfl, ih ?_ hp.2,
      TreeSet.size_insert, if_neg (by simpa using hnew c (by simp)), List.length_cons]
    · omega
    · intro d hd hmem
      rcases mem_insert_iff.1 hmem with heq | hmem
      · exact hp.1 (List.mem_map.2 ⟨d, hd, heq.symm⟩)
      · exact hnew d (by simp [hd]) hmem

section

variable (h : ix.Holds cells)
include h

theorem ChainIndex.Holds.nextCell_eq_some {a b : ScanCell} :
    nextCell cells a = some b ↔ b ∈ cells ∧ ShiftsInto a b := by
  constructor
  · intro hnext
    exact ⟨List.mem_of_find?_eq_some hnext, by simpa using List.find?_some hnext⟩
  · rintro ⟨hb, hab⟩
    cases hnext : nextCell cells a with
    | none =>
      exact absurd (decide_eq_true hab) (List.find?_eq_none.1 hnext b hb)
    | some c =>
      have hc : ShiftsInto a c := by simpa using List.find?_some hnext
      rw [List.inj_on_of_nodup_map h.scanIns (List.mem_of_find?_eq_some hnext) hb
        (hc.symm.trans hab)]

theorem ChainIndex.Holds.links (hnodup : cells.Nodup) :
    Links cells ShiftsInto (nextCell cells) where
  nodup := hnodup
  next_iff _ _ _ := h.nextCell_eq_some
  inj _ ha _ hb _ _ hac hbc := List.inj_on_of_nodup_map h.qs ha hb (hac.trans hbc.symm)

theorem ChainIndex.Holds.getElem?_nodeByScanIn (a : ScanCell) :
    ix.nodeByScanIn[a.qNet]? = (nextCell cells a).map ScanCell.nodeId := by
  cases hnext : nextCell cells a with
  | none =>
    refine TreeMap.getElem?_eq_none fun hmem => ?_
    obtain ⟨c, hc, heq⟩ := (h.mem_scanIn _).1 hmem
    exact absurd (decide_eq_true heq.symm) (List.find?_eq_none.1 hnext c hc)
  | some b =>
    obtain ⟨hb, hab⟩ := h.nextCell_eq_some.1 hnext
    rw [hab, h.scanIn b hb, Option.map_some]

variable {a : ScanCell}

/-- One step of the walk, at a cell not visited before. -/
theorem ChainIndex.Holds.walk_succ (ha : a ∈ cells) (hnew : a.nodeId ∉ visited) (chain : ScanChain)
    (fuel : ℕ) :
    walk ng ix (fuel + 1) visited chain a.nodeId =
      if chain.cells.isEmpty && !isPi ng a.scanInNet then
        .error (.thrown "scan chain root input is not a PI")
      else
        match nextCell cells a with
        | none =>
          if !isPo ng a.qNet then .error (.thrown "scan chain terminal output is not a PO")
          else .ok (visited.insert a.nodeId, ⟨chain.cells ++ [a],
            if chain.cells.isEmpty then a.scanInNet else chain.scanInNet, a.qNet⟩)
        | some b => walk ng ix fuel (visited.insert a.nodeId) { chain with
            cells := chain.cells ++ [a]
            scanInNet := if chain.cells.isEmpty then a.scanInNet else chain.scanInNet }
            b.nodeId := by
  have hvisited : ¬ visited.contains a.nodeId = true := by simpa using hnew
  simp only [walk, if_neg hvisited, h.node a ha, h.getElem?_nodeByScanIn]
  cases nextCell cells a with
  | none => rfl
  | some b => rfl

variable {fuel : ℕ}

/-- **The walk along a path** of cells not visited before, in a chain begun or not. -/
theorem ChainIndex.Holds.walk_eq {p : List ScanCell} (hchain : (a :: p).IsChain ShiftsInto)
    (hmem : ∀ c ∈ a :: p, c ∈ cells) (hend : nextCell cells (p.getLastD a) = none)
    (hids : ((a :: p).map ScanCell.nodeId).Nodup) (hnew : ∀ c ∈ a :: p, c.nodeId ∉ visited)
    (chain : ScanChain) (hfuel : p.length < fuel) :
    walk ng ix fuel visited chain a.nodeId =
      if chain.cells.isEmpty && !isPi ng a.scanInNet then
        .error (.thrown "scan chain root input is not a PI")
      else if !isPo ng (p.getLastD a).qNet then
        .error (.thrown "scan chain terminal output is not a PO")
      else .ok (visit visited (a :: p), ⟨chain.cells ++ a :: p,
        if chain.cells.isEmpty then a.scanInNet else chain.scanInNet, (p.getLastD a).qNet⟩) := by
  induction p generalizing a visited chain fuel with
  | nil =>
    obtain ⟨fuel, rfl⟩ := Nat.exists_eq_add_of_lt hfuel
    rw [h.walk_succ (hmem a (by simp)) (hnew a (by simp)), show nextCell cells a = none from hend]
    rfl
  | cons b p ih =>
    rw [List.getLastD_cons] at hend ⊢
    obtain ⟨fuel, rfl⟩ := Nat.exists_eq_add_of_lt hfuel
    have hnext : nextCell cells a = some b :=
      h.nextCell_eq_some.2 ⟨hmem b (by simp), (List.isChain_cons_cons.1 hchain).1⟩
    rw [List.map_cons, List.nodup_cons] at hids
    have hnew' : ∀ c ∈ b :: p, c.nodeId ∉ visited.insert a.nodeId := by
      intro c hc hmem
      rcases mem_insert_iff.1 hmem with heq | hmem
      · exact hids.1 (List.mem_map.2 ⟨c, hc, heq.symm⟩)
      · exact hnew c (List.mem_cons_of_mem _ hc) hmem
    rw [h.walk_succ (hmem a (by simp)) (hnew a (by simp)), hnext]
    simp only
    rw [ih hchain.tail (fun c hc => hmem c (List.mem_cons_of_mem _ hc)) hend hids.2 hnew' _
      (by rw [List.length_cons]; omega)]
    simp [visit]

/-- The cells that the loop over the roots begins at. -/
theorem ChainIndex.Holds.mem_roots :
    a ∈ rootCells ix cells ↔ IsRoot cells ShiftsInto a := by
  rw [rootCells, List.mem_filter, IsRoot]
  refine and_congr_right fun _ => ?_
  rw [Bool.not_eq_true', ← Bool.not_eq_true, ← TreeMap.mem_iff_contains, h.mem_q]
  simp only [ShiftsInto, not_exists, not_and]

variable (hids : cells.Pairwise fun a b => a.nodeId < b.nodeId)
include hids

/-- **The walk from a root** makes a chain of its path. -/
theorem ChainIndex.Holds.walk_root (ha : IsRoot cells ShiftsInto a)
    (hnew : ∀ c ∈ cellPath cells a, c.nodeId ∉ visited) (hfuel : cells.length < fuel) :
    walk ng ix fuel visited {} a.nodeId =
      chainOf ng (cellPath cells a) >>= fun chain =>
        .ok (visit visited (cellPath cells a), chain) := by
  have hlinks := h.links (nodup_of_nodeId hids)
  obtain ⟨hchain, hmem⟩ := hlinks.pathFrom_spec (cells.length + 1) ha.1
  obtain ⟨hpath, hlen⟩ := hlinks.pathFrom_root ha
  obtain ⟨p, hp⟩ : ∃ p, cellPath cells a = a :: p := ⟨_, rfl⟩
  have hend : nextCell cells (p.getLastD a) = none := by
    refine hlinks.next_getLast ha.1 (Nat.lt_succ_of_le hlen) ?_
    rw [show pathFrom (nextCell cells) (cells.length + 1) a = _ from hp, List.getLast?_cons,
      List.getLastD_eq_getLast?]
  rw [show pathFrom (nextCell cells) (cells.length + 1) a = _ from hp] at hchain hmem hpath hlen
  rw [hp] at hnew ⊢
  rw [h.walk_eq hchain hmem hend
    (hpath.map_on fun x hx y hy => eq_of_nodeId hids (hmem x hx) (hmem y hy)) hnew {}
    (by rw [List.length_cons] at hlen; omega)]
  simp only [chainOf, List.headD_cons, List.getLastD_cons, List.isEmpty_nil, Bool.true_and,
    if_true, List.nil_append]
  split
  · rfl
  · split
    · rfl
    · rfl

/-- **The loop over the roots** makes a chain of the path from each. -/
theorem ChainIndex.Holds.walkRoots_eq {roots : List ScanCell}
    (hroots : ∀ a ∈ roots, IsRoot cells ShiftsInto a)
    (hnd : (roots.map (cellPath cells)).flatten.Nodup)
    (hnew : ∀ c ∈ (roots.map (cellPath cells)).flatten, c.nodeId ∉ visited) (done : List ScanChain)
    (hfuel : cells.length < fuel) :
    (roots.map ScanCell.nodeId).foldlM (walkRoot ng ix fuel) (visited, done) =
      (roots.map (cellPath cells)).mapM (chainOf ng) >>= fun chains =>
        .ok (visit visited (roots.map (cellPath cells)).flatten, done ++ chains) := by
  have hlinks := h.links (nodup_of_nodeId hids)
  have hcells : ∀ {roots : List ScanCell}, (∀ a ∈ roots, IsRoot cells ShiftsInto a) →
      ∀ c ∈ (roots.map (cellPath cells)).flatten, c ∈ cells := by
    intro roots hroots c hc
    obtain ⟨p, hp, hcp⟩ := List.mem_flatten.1 hc
    obtain ⟨r, hr, rfl⟩ := List.mem_map.1 hp
    exact (hlinks.pathFrom_spec _ (hroots r hr).1).2 c hcp
  induction roots generalizing visited done with
  | nil => simp [visit, bind, Except.bind, pure, Except.pure]
  | cons a roots ih =>
    have hmem := hcells hroots
    simp only [List.map_cons, List.flatten_cons] at hnd hnew hmem ⊢
    rw [List.nodup_append] at hnd
    rw [List.foldlM_cons, List.mapM_cons, walkRoot, h.walk_root hids (hroots a (by simp))
      (fun c hc => hnew c (List.mem_append_left _ hc)) hfuel]
    cases chainOf ng (cellPath cells a) with
    | error e => rfl
    | ok chain =>
      have hnew' : ∀ c ∈ (roots.map (cellPath cells)).flatten,
          c.nodeId ∉ visit visited (cellPath cells a) := by
        intro c hc hvisited
        rcases mem_visit.1 hvisited with hvisited | ⟨d, hd, heq⟩
        · exact hnew c (List.mem_append_right _ hc) hvisited
        · refine hnd.2.2 d hd c hc (eq_of_nodeId hids ?_ ?_ heq)
          · exact hmem d (List.mem_append_left _ hd)
          · exact hmem c (List.mem_append_right _ hc)
      refine (ih (fun b hb => hroots b (List.mem_cons_of_mem _ hb)) hnd.2.1 hnew'
        (done ++ [chain])).trans ?_
      cases (roots.map (cellPath cells)).mapM (chainOf ng) with
      | error e => rfl
      | ok chains => simp [bind, Except.bind, pure, Except.pure, visit]

end

/-! ## Extraction -/

theorem chainOf_eq_ok {chain : ScanChain} : chainOf ng p = .ok chain ↔
    isPi ng (p.headD {}).scanInNet = true ∧ isPo ng (p.getLastD {}).qNet = true ∧
      chain = ⟨p, (p.headD {}).scanInNet, (p.getLastD {}).qNet⟩ := by
  unfold chainOf
  cases isPi ng (p.headD {}).scanInNet <;> cases isPo ng (p.getLastD {}).qNet <;>
    simp [eq_comm]

/-- The chains of the paths from the roots, if they hold all cells. -/
def chainsOf (ng : NormalizedGraph) (cells roots : List ScanCell) : Except Stop (List ScanChain) :=
  let paths := roots.map (cellPath cells)
  if roots.isEmpty then .error (.thrown "scan chain extraction found a cycle and no root")
  else paths.mapM (chainOf ng) >>= fun chains =>
    if paths.flatten.length ≠ cells.length then
      .error (.thrown "disconnected scan FFs are not in any chain")
    else .ok chains

theorem chainsOf_eq_ok {chains : List ScanChain} :
    chainsOf ng cells roots = .ok chains ↔ roots ≠ [] ∧
      (roots.map (cellPath cells)).mapM (chainOf ng) = .ok chains ∧
        (roots.map (cellPath cells)).flatten.length = cells.length := by
  simp only [chainsOf, List.isEmpty_iff]
  split
  · simp_all
  · rw [bind_eq_ok]
    simp_all only [not_false_eq_true, ne_eq, true_and]
    constructor
    · rintro ⟨chains', hmap, hok⟩
      split at hok
      · cases hok
      · cases hok
        exact ⟨hmap, not_not.1 ‹_›⟩
    · rintro ⟨hmap, hlen⟩
      exact ⟨chains, hmap, if_neg (not_not.2 hlen)⟩

theorem chainsOf_ne_fuel : chainsOf ng cells roots ≠ .error .fuel := by
  simp only [chainsOf]
  split
  · nofun
  · intro hfuel
    rcases bind_eq_error.1 hfuel with hmap | ⟨chains, -, hlen⟩
    · obtain ⟨p, -, hp⟩ := exists_of_mapM_eq_error hmap
      unfold chainOf at hp
      split_ifs at hp <;> cases hp
    · split_ifs at hlen
      cases hlen

section

variable (h : ix.Holds cells)
  (hids : cells.Pairwise fun a b => a.nodeId < b.nodeId)
include h hids

/-- **Extraction follows the paths**, with enough fuel. -/
theorem ChainIndex.Holds.extractScanChains_eq (hcells : scanCells ng = cells) (hne : cells ≠ [])
    (hix : cells.foldlM ChainIndex.add {} = .ok ix) {fuel : ℕ} (hfuel : cells.length < fuel) :
    extractScanChains ng fuel = chainsOf ng cells (rootCells ix cells) := by
  have hroots := fun a => h.mem_roots (a := a)
  have hlinks := h.links (nodup_of_nodeId hids)
  have hnd := hlinks.nodup_rootPaths hroots (hlinks.nodup.filter _)
  have hsize : (visit ∅ ((rootCells ix cells).map (cellPath cells)).flatten).size =
      ((rootCells ix cells).map (cellPath cells)).flatten.length :=
    (size_visit (by simp) (hnd.map_on fun a ha b hb => eq_of_nodeId hids
      (hlinks.subset_rootPaths hroots ha) (hlinks.subset_rootPaths hroots hb))).trans
      (Nat.zero_add _)
  simp only [extractScanChains, chainsOf, hcells, List.isEmpty_iff, List.map_eq_nil_iff, if_neg hne,
    hix]
  refine ite_congr rfl (fun _ => rfl) fun _ => ?_
  rw [h.walkRoots_eq hids (fun a ha => (hroots a).1 ha) hnd (by simp) [] hfuel]
  cases ((rootCells ix cells).map (cellPath cells)).mapM (chainOf ng) with
  | error e => rfl
  | ok chains =>
    simp only [bind, Except.bind, List.nil_append]
    rw [hsize]

/-- The chains list the cells of paths that thread the flip-flops. -/
theorem ChainIndex.Holds.threaded_of_chainsOf {chains : List ScanChain}
    (hok : chainsOf ng cells (rootCells ix cells) = .ok chains) :
    Threaded ng cells (chains.map ScanChain.cells) ∧ ∀ chain ∈ chains, chain.Spans := by
  obtain ⟨-, hmap, hlen⟩ := chainsOf_eq_ok.1 hok
  have hlinks := h.links (nodup_of_nodeId hids)
  have hsplits : Splits cells ShiftsInto ((rootCells ix cells).map (cellPath cells)) :=
    hlinks.splits_rootPaths (fun a => h.mem_roots) (hlinks.nodup.filter _) hlen
  have hcells : (rootCells ix cells).map (cellPath cells) = chains.map ScanChain.cells := by
    have hall : List.Forall₂ (fun p chain => id p = ScanChain.cells chain) _ chains :=
      (mapM_eq_ok_iff_forall₂.1 hmap).imp fun p chain hp => by rw [(chainOf_eq_ok.1 hp).2.2]; rfl
    simpa using map_eq_map_of_forall₂ hall
  have hof : ∀ chain ∈ chains, isPi ng (chain.cells.headD {}).scanInNet = true ∧
      isPo ng (chain.cells.getLastD {}).qNet = true ∧ chain = ⟨chain.cells,
        (chain.cells.headD {}).scanInNet, (chain.cells.getLastD {}).qNet⟩ := by
    intro chain hchain
    obtain ⟨p, -, hp⟩ := (mem_of_mapM_eq_ok hmap).1 hchain
    obtain ⟨hpi, hpo, rfl⟩ := chainOf_eq_ok.1 hp
    exact ⟨hpi, hpo, rfl⟩
  rw [hcells] at hsplits
  refine ⟨⟨h.scanIns, h.qs, hsplits, ?_, ?_⟩, fun chain hchain => ?_⟩
  · intro p hp c hc
    obtain ⟨chain, hchain, rfl⟩ := List.mem_map.1 hp
    simpa [hc] using (hof chain hchain).1
  · intro p hp c hc
    obtain ⟨chain, hchain, rfl⟩ := List.mem_map.1 hp
    simpa [hc] using (hof chain hchain).2.1
  · have hne : chain.cells ≠ [] := fun hnil =>
      hsplits.ne_nil (hnil ▸ List.mem_map_of_mem hchain)
    obtain ⟨a, p, hap⟩ := List.exists_cons_of_ne_nil hne
    rw [(hof chain hchain).2.2, hap]
    simp [ScanChain.Spans, List.getLast?_cons]

/-- Where the flip-flops are threaded, the paths from the roots make chains. -/
theorem ChainIndex.Holds.exists_chainsOf {paths : List (List ScanCell)}
    (hthreaded : Threaded ng cells paths) (hne : cells ≠ []) :
    ∃ chains, chainsOf ng cells (rootCells ix cells) = .ok chains := by
  have hlinks := h.links (nodup_of_nodeId hids)
  have hroots := fun a => h.mem_roots (a := a)
  have hnodup := hlinks.nodup.filter fun c => !ix.nodeByQ.contains c.scanInNet
  have hlen : ((rootCells ix cells).map (cellPath cells)).flatten.length = cells.length :=
    hlinks.length_rootPaths hroots hnodup hthreaded.splits
  have hsplits : Splits cells ShiftsInto ((rootCells ix cells).map (cellPath cells)) :=
    hlinks.splits_rootPaths hroots hnodup hlen
  -- the two families of paths begin at the same cells and end at the same cells
  have hpath : ∀ p ∈ (rootCells ix cells).map (cellPath cells),
      ∃ chain, chainOf ng p = .ok chain := by
    intro p hp
    obtain ⟨a, t, rfl⟩ := List.exists_cons_of_ne_nil (l := p) fun hnil => hsplits.ne_nil (hnil ▸ hp)
    refine ⟨_, chainOf_eq_ok.2 ⟨?_, ?_, rfl⟩⟩
    · obtain ⟨q, hq, hhead⟩ := (hthreaded.splits.isRoot_iff hlinks.nodup).1
        ((hsplits.isRoot_iff hlinks.nodup).2 ⟨_, hp, rfl⟩)
      exact hthreaded.starts q hq _ hhead
    · obtain ⟨q, hq, hlast⟩ := (hthreaded.splits.isEnd_iff hlinks.nodup).1
        ((hsplits.isEnd_iff hlinks.nodup).2 ⟨_, hp, List.getLast?_cons⟩)
      rw [List.getLastD_cons, List.getLastD_eq_getLast?]
      exact hthreaded.ends q hq _ hlast
  obtain ⟨chains, hchains⟩ := exists_mapM_eq_ok hpath
  refine ⟨chains, chainsOf_eq_ok.2 ⟨fun hnil => hne ?_, hchains, hlen⟩⟩
  rw [hnil] at hlen
  exact List.eq_nil_of_length_eq_zero hlen.symm

end

/-- **Extraction succeeds exactly on threaded flip-flops.**  The cells it threads are the nodes of
type `FF` with a scan input.  With more fuel than there are such cells it has one outcome: chains
if and only if the cells fall into paths, each from an input to an output, and then the chains are
such paths. -/
theorem extractScanChains_spec (g : KeyedGraph) :
    (∀ c, c ∈ scanCells g.toNormalizedGraph ↔ ∃ node ∈ g.nodes, node.type = .FF ∧
      node.ffConfig.hasScan = true ∧ c = ⟨node.id, node.ffConfig.scanInNet,
        node.ffConfig.scanEnableNet, node.ffConfig.outputNet⟩) ∧
    ∃ r, (∀ fuel, (scanCells g.toNormalizedGraph).length < fuel →
        extractScanChains g.toNormalizedGraph fuel = r) ∧ r ≠ .error .fuel ∧
      ((∃ chains, r = .ok chains) ↔
        ∃ paths, Threaded g.toNormalizedGraph (scanCells g.toNormalizedGraph) paths) ∧
      ∀ chains, r = .ok chains → Threaded g.toNormalizedGraph (scanCells g.toNormalizedGraph)
        (chains.map ScanChain.cells) ∧ ∀ chain ∈ chains, chain.Spans := by
  refine ⟨fun c => mem_scanCells, ?_⟩
  have hids := pairwise_nodeId g
  generalize hcells : scanCells g.toNormalizedGraph = cells at *
  by_cases hne : cells = []
  · -- no scan flip-flops, no chains
    subst hne
    have hnone : Threaded g.toNormalizedGraph [] [] := ⟨List.nodup_nil, List.nodup_nil,
      ⟨.nil, List.not_mem_nil, by simp, by simp⟩, by simp, by simp⟩
    refine ⟨.ok [], fun _ _ => by simp [extractScanChains, hcells], nofun,
      ⟨fun _ => ⟨[], hnone⟩, fun _ => ⟨[], rfl⟩⟩, ?_⟩
    rintro _ ⟨⟩
    exact ⟨hnone, by simp⟩
  rcases foldlM_add hids with ⟨⟨ix, hix, h⟩, -⟩ | ⟨⟨message, herr⟩, hshared⟩
  · refine ⟨_, fun fuel hfuel => h.extractScanChains_eq hids hcells hne hix hfuel, ?_,
      ⟨fun ⟨chains, hok⟩ => ⟨_, (h.threaded_of_chainsOf hids hok).1⟩, fun ⟨paths, hthreaded⟩ =>
        h.exists_chainsOf hids hthreaded hne⟩, fun chains hok => h.threaded_of_chainsOf hids hok⟩
    exact chainsOf_ne_fuel
  · refine ⟨.error (.thrown message), fun fuel _ => ?_, nofun, ⟨nofun, fun ⟨paths, hthreaded⟩ =>
      absurd ⟨hthreaded.scanIns, hthreaded.qs⟩ hshared⟩, nofun⟩
    simp [extractScanChains, hcells, hne, herr, bind, Except.bind]

end Scan.Extraction

end FaultFlow
