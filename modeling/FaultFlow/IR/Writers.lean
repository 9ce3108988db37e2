/-
# One writer per net

The nodes of the compiled graph write the nets that the normalized nodes write: a gate
every output, a flip-flop its one output, a source its net.  Every branch is written by
its buffer.  So the writers of a net can be counted in the netlist, and there is exactly
one when every cell writes what the cell map declares (`nets_singly_written`).
-/

import FaultFlow.IR.Cells
import FaultFlow.IR.Drivers
import FaultFlow.IR.Wiring

namespace FaultFlow

open Std (TreeMap TreeSet)

open GraphCompiler NormalizedGraph

/-- The nets that the lowered nodes of a node write. -/
def NormNode.writes (n : NormNode) : List YosysNetID :=
  match n.type with
  | .FF => [n.ffConfig.outputNet]
  | .GATE | .CONST => n.outputPins.toList.map Prod.snd
  | _ => []

/-! ## The writers of a compiled net -/

namespace CachedGraph

variable (g : CachedGraph)

theorem low_outs_eq : g.low.nodes.map (fun ln => ln.node.out) =
    (ordered g.ng).flatMap fun n => n.writes.map fun y => (mapNet g.low.index y).1 := by
  have h := congrArg (List.map fun ln : LoweredNode => ln.node.out) g.low_nodes_eq
  rw [List.map_map, List.map_flatMap] at h
  refine h.trans (List.flatMap_congr fun n _ => ?_)
  unfold lowerings NormNode.writes
  cases n.type <;> simp [loweredOutput, Function.comp_def]

theorem split_outs_eq : g.split.nodes.map (fun sn => sn.node.out) =
    g.low.nodes.map (fun ln => ln.node.out) ++
      (List.range (g.split.nodes.length - g.low.nodes.length)).map (g.stemCount + ·) := by
  refine List.ext_getElem? fun i => ?_
  rw [List.getElem?_map]
  rcases Nat.lt_or_ge i g.low.nodes.length with hi | hi
  · rw [List.getElem?_append_left (by simpa using hi), List.getElem?_map]
    have hln := List.getElem?_eq_getElem hi
    obtain ⟨ins, hins⟩ := g.exists_split hln
    rw [hins, hln]
    rfl
  · obtain ⟨j, rfl⟩ := Nat.exists_eq_add_of_le hi
    rw [List.getElem?_append_right (by simp), List.length_map, Nat.add_sub_cancel_left,
      List.getElem?_map]
    have hle := g.splitSpec.le
    by_cases hj : j < g.split.nodes.length - g.low.nodes.length
    · have hlt : g.low.nodes.length + j < g.split.nodes.length := by omega
      obtain ⟨m, _, _, _, -, -, -, hb, -⟩ := g.splitSpec.branch j hlt
      rw [hb.buf, List.getElem?_range hj]
      rfl
    · have hlen : g.split.nodes.length ≤ g.low.nodes.length + j := by omega
      rw [List.getElem?_eq_none hlen, List.getElem?_eq_none (by simpa using hj)]
      rfl

theorem outs_perm : (g.cg.nodes.map SimNode.out).Perm (g.split.nodes.map fun sn => sn.node.out) := by
  rw [g.nodes_eq, sortByLevel_eq, List.map_map, List.map_map]
  have h := (List.perm_insertionSort ByLevel g.split.nodes.zipIdx).map fun p => p.1.node.out
  refine h.trans (List.Perm.of_eq ?_)
  rw [show (fun p : LoweredNode × ℕ => p.1.node.out) =
    (fun sn : LoweredNode => sn.node.out) ∘ Prod.fst from rfl, ← List.map_map, List.zipIdx_map_fst]

/-- A branch is written once, by its buffer. -/
theorem count_out_branch {i : CompiledNetIndex} (hi : g.stemCount ≤ i) (hlt : i < g.cg.netCount) :
    (g.cg.nodes.map SimNode.out).count i = 1 := by
  obtain ⟨j, rfl⟩ := Nat.exists_eq_add_of_le hi
  have hcount := g.splitSpec.count
  rw [g.netCount_eq, hcount] at hlt
  have hj : j < g.split.nodes.length - g.low.nodes.length := Nat.lt_of_add_lt_add_left hlt
  have hlow : g.stemCount + j ∉ g.low.nodes.map fun ln => ln.node.out := by
    intro hmem
    obtain ⟨ln, hln, hout⟩ := List.mem_map.1 hmem
    have := g.lt_stemCount_of_out hln
    rw [hout] at this
    exact absurd this (Nat.not_lt.2 (Nat.le_add_right _ _))
  rw [g.outs_perm.count_eq, g.split_outs_eq, List.count_append, List.count_eq_zero.2 hlow, zero_add]
  refine List.count_eq_one_of_mem ?_ (List.mem_map.2 ⟨j, List.mem_range.2 hj, rfl⟩)
  exact List.nodup_range.map fun _ _ h => Nat.add_left_cancel h

variable {y : YosysNetID}

/-- The numbered nets are the nets of the graph. -/
theorem mem_nets_of_c2y {i : ℕ} (h : g.low.index.c2y[i]? = some y) :
    y ∈ g.ng.nets := by
  have hmem : ∀ z ∈ (initialIndex g.ng).c2y, z ∈ g.ng.nets.keys := by
    refine Lib.foldl_invariant (fun m : NetIndex => ∀ z ∈ m.c2y, z ∈ g.ng.nets.keys) (by simp) ?_
    intro id hid m hm z hz
    unfold mapNet at hz
    split at hz
    · exact hm z hz
    · rcases List.mem_append.1 hz with hz | hz
      · exact hm z hz
      · rw [List.mem_singleton.1 hz]
        exact hid
  rw [g.lowered.index] at h
  exact TreeMap.mem_keys.1 (hmem y (List.mem_of_getElem? h))

/-- The nets a node writes are nets of the graph. -/
theorem mem_nets_of_writes {n : NormNode} (hn : n ∈ g.ng.nodes) (hy : y ∈ n.writes) :
    y ∈ g.ng.nets := by
  have hclosed := g.levelized.inv.closed n hn
  unfold NormNode.writes at hy
  have hpins : y ∈ n.outputPins.toList.map Prod.snd → y ∈ g.ng.nets := by
    intro hy
    obtain ⟨p, hp, rfl⟩ := List.mem_map.1 hy
    exact hclosed.outputs p.1 p.2 (TreeMap.mem_toList_iff_getElem?_eq_some.1 hp)
  split at hy
  · rename_i htype
    rw [List.mem_singleton.1 hy]
    exact hclosed.ff htype _ (by simp [ffNets])
  · exact hpins hy
  · exact hpins hy
  · exact absurd hy List.not_mem_nil

/-- **The writers of a stem** are the nodes that write its net. -/
theorem count_out_stem {i : ℕ} (hy : g.low.index.c2y[i]? = some y) :
    (g.cg.nodes.map SimNode.out).count i = (g.ng.nodes.flatMap NormNode.writes).count y := by
  have hi : i < g.stemCount := (List.getElem?_eq_some_iff.1 hy).1
  have hbranch : i ∉ (List.range (g.split.nodes.length - g.low.nodes.length)).map
      (g.stemCount + ·) := by
    intro hmem
    obtain ⟨j, -, rfl⟩ := List.mem_map.1 hmem
    exact absurd hi (Nat.not_lt.2 (Nat.le_add_right _ _))
  have hperm : ((ordered g.ng).flatMap NormNode.writes).Perm (g.ng.nodes.flatMap NormNode.writes) :=
    (List.perm_insertionSort _ _).flatMap_right _
  rw [g.outs_perm.count_eq, g.split_outs_eq, List.count_append, List.count_eq_zero.2 hbranch,
    add_zero, g.low_outs_eq, ← hperm.count_eq, ← List.map_flatMap, List.count_eq_countP,
    List.countP_map, List.count_eq_countP]
  refine List.countP_congr fun z hz => ?_
  obtain ⟨n, hn, hz⟩ := List.mem_flatMap.1 hz
  obtain ⟨k, hk⟩ := (initialIndex_spec g.ng).2 z (g.mem_nets_of_writes (mem_ordered.1 hn) hz)
  rw [← g.lowered.index] at hk
  have hyi := (g.index_valid y i).2 hy
  simp only [Function.comp_apply, beq_iff_eq, mapNet_eq_of_some hk]
  constructor
  · rintro rfl
    exact g.index_valid.inj hk hyi
  · rintro rfl
    exact Option.some.inj (hk.symm.trans hyi)

end CachedGraph

/-! ## The outputs of a cell -/

/-- The bits of the output pins that the cell map declares for a cell. -/
def CellMap.declaredBits (cellMap : CellMap) (cell : ParsedCell) : List YosysNetID :=
  match cellMap.lookup cell.type with
  | none => []
  | some entry => entry.outputs.toList.flatMap fun o => (cell.conns[o.2]?).getD []

/-- A cell whose nodes write all the bits of its declared outputs: it is no clock gate,
no output pin has two bits, a flip-flop has no output besides its own and the one that a
scan wrapper drives, and a scan wrapper declares that one under its own name. -/
structure CellMapEntry.WritesOutputs (entry : CellMapEntry) (cell : ParsedCell) : Prop where
  type : entry.nodeType ≠ .ICG
  single : ∀ o ∈ entry.outputs.toList, ((cell.conns[o.2]?).getD []).length ≤ 1
  ff : entry.nodeType = .FF → ∀ o ∈ entry.outputs.toList, (cell.front? o.2).isSome →
    o.1 = entry.ff.output ∨ (isScanWbr entry = true ∧ o.1 = wbrDrivePin entry)
  scan : isScanWbr entry = true →
    entry.outputs[wbrDrivePin entry]? = some (wbrDrivePin entry) ∧ entry.ff.output ≠ wbrDrivePin entry

instance (entry : CellMapEntry) (cell : ParsedCell) : Decidable (entry.WritesOutputs cell) :=
  decidable_of_iff (entry.nodeType ≠ .ICG ∧
      (∀ o ∈ entry.outputs.toList, ((cell.conns[o.2]?).getD []).length ≤ 1) ∧
      (entry.nodeType = .FF → ∀ o ∈ entry.outputs.toList, (cell.front? o.2).isSome →
        o.1 = entry.ff.output ∨ (isScanWbr entry = true ∧ o.1 = wbrDrivePin entry)) ∧
      (isScanWbr entry = true → entry.outputs[wbrDrivePin entry]? = some (wbrDrivePin entry) ∧
        entry.ff.output ≠ wbrDrivePin entry))
    ⟨fun h => ⟨h.1, h.2.1, h.2.2.1, h.2.2.2⟩, fun h => ⟨h.type, h.single, h.ff, h.scan⟩⟩

namespace NormalizedGraph

/-- The connected outputs of a cell, with their nets. -/
def connectedOutputs (cell : ParsedCell) (entry : CellMapEntry) : List (String × YosysNetID) :=
  entry.outputs.toList.filterMap fun o => (cell.front? o.2).map (o.1, ·)

variable {cell : ParsedCell} {entry : CellMapEntry}

theorem mem_connectedOutputs {k : String} {y : YosysNetID} : (k, y) ∈ connectedOutputs cell entry ↔
      ∃ lib, (k, lib) ∈ entry.outputs.toList ∧ cell.front? lib = some y := by
  simp only [connectedOutputs, List.mem_filterMap, Option.map_eq_some_iff, Prod.mk.injEq]
  constructor
  · rintro ⟨⟨k', lib⟩, ho, z, hz, rfl, rfl⟩
    exact ⟨lib, ho, hz⟩
  · rintro ⟨lib, ho, hz⟩
    exact ⟨(k, lib), ho, y, hz, rfl, rfl⟩

/-- A map lists each key once. -/
theorem nodup_toList {β : Type} (t : TreeMap String β) : t.toList.Nodup :=
  TreeMap.distinct_keys_toList.imp fun h heq => h (by rw [heq]; exact Std.compare_self)

theorem nodup_connectedOutputs (cell : ParsedCell) (entry : CellMapEntry) :
    (connectedOutputs cell entry).Nodup := by
  refine List.Pairwise.filterMap _ ?_ (TreeMap.distinct_keys_toList (t := entry.outputs))
  intro o o' hne q hq q' hq' heq
  obtain ⟨y, -, rfl⟩ := Option.map_eq_some_iff.1 hq
  obtain ⟨y', -, rfl⟩ := Option.map_eq_some_iff.1 hq'
  exact hne (Std.compare_eq_iff_eq.2 (Prod.mk.inj heq).1)

/-- With pins of one bit the declared bits are the connected nets. -/
theorem declaredBits_eq {cellMap : CellMap} (hlook : cellMap.lookup cell.type = some entry)
    (hsingle : ∀ o ∈ entry.outputs.toList, ((cell.conns[o.2]?).getD []).length ≤ 1) :
    cellMap.declaredBits cell = (connectedOutputs cell entry).map Prod.snd := by
  rw [CellMap.declaredBits, hlook, connectedOutputs, List.map_filterMap,
    List.filterMap_eq_flatMap_toList]
  refine List.flatMap_congr fun o ho => ?_
  have hlen := hsingle o ho
  rw [Option.map_map]
  unfold ParsedCell.front?
  cases hconn : cell.conns[o.2]? with
  | none => rfl
  | some bits =>
    rw [hconn] at hlen
    match bits, hlen with
    | [], _ => rfl
    | [_], _ => rfl

/-- The output of a flip-flop. -/
theorem buildFfConfig_output {cfg : FFConfig} (h : buildFfConfig entry cell = .ok cfg) :
    ∃ lib, (entry.ff.output, lib) ∈ entry.outputs.toList ∧ cell.front? lib = some cfg.outputNet := by
  unfold buildFfConfig at h
  obtain ⟨_, -, h⟩ := Lib.bind_eq_ok.1 h
  obtain ⟨_, -, h⟩ := Lib.bind_eq_ok.1 h
  obtain ⟨libPin, hlib, h⟩ := Lib.bind_eq_ok.1 h
  obtain ⟨outputNet, hout, h⟩ := Lib.bind_eq_ok.1 h
  obtain ⟨_, -, h⟩ := Lib.bind_eq_ok.1 h
  obtain ⟨_, -, h⟩ := Lib.bind_eq_ok.1 h
  obtain ⟨_, -, h⟩ := Lib.bind_eq_ok.1 h
  obtain ⟨_, -, h⟩ := Lib.bind_eq_ok.1 h
  cases h
  unfold ffOutputPin at hlib
  split at hlib
  · rename_i hget
    cases hlib
    exact ⟨libPin, TreeMap.mem_toList_iff_getElem?_eq_some.2 hget, firstConnOrThrow_eq_ok hout⟩
  · cases hlib

/-- The multiplexer of a scan wrapper drives its pin. -/
theorem exists_wbrMuxNodes {inst : String} (h : wbrMuxNodes inst cell entry ≠ []) :
    ∃ drive n, cell.front? (wbrDrivePin entry) = some drive ∧ wbrMuxNodes inst cell entry = [n] ∧
      n.writes = [drive] ∧ ∀ y, Claims n y ↔ y = drive := by
  unfold wbrMuxNodes at h ⊢
  split at h
  · rename_i hdrive
    refine ⟨_, _, hdrive, rfl, rfl, fun y => ⟨?_, ?_⟩⟩
    · rintro ⟨pin, hpin⟩
      exact (getElem?_single.1 hpin).2.symm
    · rintro rfl
      exact ⟨_, getElem?_single.2 ⟨rfl, rfl⟩⟩
  · exact absurd rfl h

section Entry

variable {cellMap : CellMap} {p : String × ParsedCell} (hparsed : entry.Parsed)
  (hsup : Supported p entry) (hw : entry.WritesOutputs p.2)

include hparsed hsup hw

/-- **The nodes of a cell write its connected outputs**, each once. -/
theorem writes_perm : ((entryNodes p.1 p.2 entry).flatMap NormNode.writes).Perm
    ((connectedOutputs p.2 entry).map Prod.snd) := by
  have hnd := nodup_connectedOutputs p.2 entry
  have hgate : entry.nodeType ≠ .FF → isScanWbr entry ≠ true := by
    intro hne hscan
    rw [isScanWbr, Bool.and_eq_true] at hscan
    exact hne (hparsed.2.2.2 hscan.1 hscan.2).1
  -- a gate or a constant: the pins of the node are the connected outputs
  have hpins : entry.nodeType ≠ .FF → (cellNode p.1 p.2 entry).writes =
      (outputPinsOf p.2 entry).toList.map Prod.snd →
      ((entryNodes p.1 p.2 entry).flatMap NormNode.writes).Perm
        ((connectedOutputs p.2 entry).map Prod.snd) := by
    intro hne hwrites
    rw [entryNodes, if_neg (hgate hne), List.flatMap_singleton, hwrites]
    refine List.Perm.map _ ((List.perm_ext_iff_of_nodup (nodup_toList _) hnd).2 ?_)
    rintro ⟨k, y⟩
    rw [TreeMap.mem_toList_iff_getElem?_eq_some, getElem?_outputPinsOf, mem_connectedOutputs]
    refine exists_congr fun lib => and_congr Iff.rfl (and_iff_right fun h => hgate hne h.1)
  cases htype : entry.nodeType with
  | GATE => exact hpins (by simp [htype]) (by simp [NormNode.writes, cellNode, htype])
  | CONST => exact hpins (by simp [htype]) (by simp [NormNode.writes, cellNode, htype])
  | LATCH => exact absurd htype hsup.type.1
  | TBUF => exact absurd htype hsup.type.2
  | ICG => exact absurd htype hw.type
  | FF =>
    obtain ⟨cfg, hcfg⟩ := hsup.ff htype
    obtain ⟨lib, hlib, hout⟩ := buildFfConfig_output hcfg
    have hwrites : (cellNode p.1 p.2 entry).writes = [cfg.outputNet] := by
      simp [NormNode.writes, cellNode, htype, cellFfConfig, hcfg, Except.toOption]
    -- the logical output determines the net
    have hkey : ∀ k y y', (k, y) ∈ connectedOutputs p.2 entry → (k, y') ∈ connectedOutputs p.2 entry →
        y = y' := by
      intro k y y' h h'
      obtain ⟨l, hl, hy⟩ := mem_connectedOutputs.1 h
      obtain ⟨l', hl', hy'⟩ := mem_connectedOutputs.1 h'
      rw [TreeMap.mem_toList_iff_getElem?_eq_some] at hl hl'
      obtain rfl := Option.some.inj (hl.symm.trans hl')
      exact Option.some.inj (hy.symm.trans hy')
    have hq : (entry.ff.output, cfg.outputNet) ∈ connectedOutputs p.2 entry :=
      mem_connectedOutputs.2 ⟨lib, hlib, hout⟩
    have hcases : ∀ k y, (k, y) ∈ connectedOutputs p.2 entry → k = entry.ff.output ∨
        (isScanWbr entry = true ∧ k = wbrDrivePin entry) := by
      intro k y h
      obtain ⟨l, hl, hy⟩ := mem_connectedOutputs.1 h
      exact hw.ff htype (k, l) hl (by rw [hy]; rfl)
    by_cases hscan : isScanWbr entry = true
    · obtain ⟨drive, n, hdrive, hmux, hn, -⟩ := exists_wbrMuxNodes (hsup.mux hscan)
      obtain ⟨hown, hne⟩ := hw.scan hscan
      have hd : (wbrDrivePin entry, drive) ∈ connectedOutputs p.2 entry :=
        mem_connectedOutputs.2 ⟨_, TreeMap.mem_toList_iff_getElem?_eq_some.2 hown, hdrive⟩
      have hperm : [(entry.ff.output, cfg.outputNet), (wbrDrivePin entry, drive)].Perm
          (connectedOutputs p.2 entry) := by
        refine (List.perm_ext_iff_of_nodup (by simp [hne]) hnd).2 ?_
        rintro ⟨k, y⟩
        simp only [List.mem_cons, Prod.mk.injEq, List.not_mem_nil, or_false]
        constructor
        · rintro (⟨rfl, rfl⟩ | ⟨rfl, rfl⟩)
          · exact hq
          · exact hd
        · intro h
          rcases hcases k y h with rfl | ⟨-, rfl⟩
          · exact .inl ⟨rfl, hkey _ _ _ h hq⟩
          · exact .inr ⟨rfl, hkey _ _ _ h hd⟩
      rw [entryNodes, if_pos hscan, hmux, List.flatMap_cons, List.flatMap_singleton, hwrites, hn]
      exact hperm.map Prod.snd
    · have hperm : [(entry.ff.output, cfg.outputNet)].Perm (connectedOutputs p.2 entry) := by
        refine (List.perm_ext_iff_of_nodup (List.nodup_singleton _) hnd).2 ?_
        rintro ⟨k, y⟩
        rw [List.mem_singleton, Prod.mk.injEq]
        constructor
        · rintro ⟨rfl, rfl⟩
          exact hq
        · intro h
          rcases hcases k y h with rfl | ⟨hs, -⟩
          · exact ⟨rfl, hkey _ _ _ h hq⟩
          · exact absurd hs hscan
      rw [entryNodes, if_neg hscan, List.flatMap_singleton, hwrites]
      exact hperm.map Prod.snd

omit hparsed in
/-- The nodes of a cell claim its connected outputs. -/
theorem claims_iff (y : YosysNetID) : (∃ n ∈ entryNodes p.1 p.2 entry, Claims n y) ↔
    y ∈ (connectedOutputs p.2 entry).map Prod.snd := by
  have hnode : Claims (cellNode p.1 p.2 entry) y ↔ ∃ k lib, (k, lib) ∈ entry.outputs.toList ∧
      ¬ (isScanWbr entry = true ∧ k = wbrDrivePin entry) ∧ p.2.front? lib = some y :=
    exists_congr fun k => getElem?_outputPinsOf
  have hconn : y ∈ (connectedOutputs p.2 entry).map Prod.snd ↔
      ∃ k lib, (k, lib) ∈ entry.outputs.toList ∧ p.2.front? lib = some y := by
    simp only [List.mem_map, Prod.exists, exists_eq_right, mem_connectedOutputs]
  rw [hconn]
  by_cases hscan : isScanWbr entry = true
  · obtain ⟨drive, n, hdrive, hmux, -, hn⟩ := exists_wbrMuxNodes (hsup.mux hscan)
    obtain ⟨hown, -⟩ := hw.scan hscan
    have hown' := TreeMap.mem_toList_iff_getElem?_eq_some.2 hown
    simp only [entryNodes, if_pos hscan, hmux, List.mem_cons, List.not_mem_nil, or_false,
      exists_eq_or_imp, exists_eq_left, hnode, hn]
    constructor
    · rintro (⟨k, lib, hlib, -, hy⟩ | rfl)
      · exact ⟨k, lib, hlib, hy⟩
      · exact ⟨_, _, hown', hdrive⟩
    · rintro ⟨k, lib, hlib, hy⟩
      by_cases hk : k = wbrDrivePin entry
      · subst hk
        rw [TreeMap.mem_toList_iff_getElem?_eq_some] at hlib
        obtain rfl := Option.some.inj (hlib.symm.trans hown)
        exact .inr (Option.some.inj (hy.symm.trans hdrive))
      · exact .inl ⟨k, lib, hlib, fun h => hk h.2, hy⟩
  · simp only [entryNodes, if_neg hscan, List.mem_singleton, exists_eq_left, hnode]
    refine exists_congr fun k => exists_congr fun lib => and_congr Iff.rfl ?_
    exact and_iff_right fun h => hscan h.1

end Entry

end NormalizedGraph

/-! ## The netlist -/

/-- A bit that is no constant. -/
def IsSignal (y : YosysNetID) : Prop := y ≠ const0NetId ∧ y ≠ const1NetId

instance (y : YosysNetID) : Decidable (IsSignal y) := inferInstanceAs (Decidable (_ ∧ _))

/-- The bits of the input ports. -/
def ParsedModule.inputBits (mod : ParsedModule) : List YosysNetID :=
  mod.ports.toList.flatMap fun p => if p.2.direction = "input" then p.2.bits else []

/-- The bits of the declared output pins. -/
def ParsedModule.outputBits (mod : ParsedModule) (cellMap : CellMap) : List YosysNetID :=
  mod.cells.toList.flatMap fun p => cellMap.declaredBits p.2

namespace CachedGraph

/-- Every signal bit of the netlist is driven by one input port bit or one declared
output pin. -/
def SignalsDriven (g : CachedGraph) : Prop :=
  ∀ y ∈ g.parsed.bits, IsSignal y →
    g.parsed.inputBits.count y + (g.parsed.outputBits g.cellMap).count y = 1

/-- The cells write their outputs, and no input port and no output pin is on a
constant. -/
structure OutputsWritten (g : CachedGraph) : Prop where
  cells : ∀ p ∈ g.parsed.cells.toList, g.blackboxInstances.contains p.1 = false →
    ∀ entry ∈ g.cellMap.lookup p.2.type, entry.WritesOutputs p.2
  inputs : ∀ y ∈ g.parsed.inputBits, IsSignal y
  outputs : ∀ y ∈ g.parsed.outputBits g.cellMap, IsSignal y
  blackboxed : ∀ p ∈ g.parsed.cells.toList, g.blackboxInstances.contains p.1 = true →
    ∀ y, OutputBit g.cellMap p.2 y → IsSignal y

variable {g : CachedGraph}

theorem mem_PIs_iff {y : YosysNetID} : y ∈ g.ng.PIs ↔ y ∈ g.parsed.inputBits := by
  rw [NormalizedGraph.mem_PIs g.normalized, ParsedModule.inputBits, List.mem_flatMap]
  refine exists_congr fun p => and_congr Iff.rfl ?_
  split
  · rename_i h
    exact and_iff_right h
  · rename_i h
    exact ⟨fun hp => absurd hp.1 h, fun hp => absurd hp List.not_mem_nil⟩

/-- A declared output bit is an output bit for `is_output_pin`. -/
theorem outputBit_of_declared {cell : ParsedCell} {y : YosysNetID}
    (hy : y ∈ g.cellMap.declaredBits cell) : OutputBit g.cellMap cell y := by
  unfold CellMap.declaredBits at hy
  split at hy
  · exact absurd hy List.not_mem_nil
  · rename_i entry hlook
    obtain ⟨o, ho, hy⟩ := List.mem_flatMap.1 hy
    cases hconn : cell.conns[o.2]? with
    | none => simp [hconn] at hy
    | some bits =>
      rw [hconn] at hy
      refine ⟨(o.2, bits), TreeMap.mem_toList_iff_getElem?_eq_some.2 hconn, ?_, hy⟩
      have hany : (entry.outputs.toList.any fun q => q.2 == o.2) = true :=
        List.any_eq_true.2 ⟨o, ho, beq_self_eq_true _⟩
      simp only [isOutputPin, hlook, hany, if_true]

section

variable (hpolicy : g.unsupportedPolicy = "fail") (hw : g.OutputsWritten)

include hpolicy hw

/-- What a cell that is not blackboxed writes and claims. -/
theorem cellNodes_spec {p : String × ParsedCell} (hp : p ∈ g.parsed.cells.toList)
    (hbb : g.blackboxInstances.contains p.1 = false) :
    ((cellNodes g.cellMap g.blackboxInstances p).flatMap NormNode.writes).Perm
        (g.cellMap.declaredBits p.2) ∧
      ∀ y, (∃ n ∈ cellNodes g.cellMap g.blackboxInstances p, Claims n y) ↔
        y ∈ g.cellMap.declaredBits p.2 := by
  obtain ⟨-, hcells⟩ := exists_nodes_eq g.normalized
  obtain ⟨-, hacc⟩ := hcells p hp
  obtain ⟨entry, hlook, hsup⟩ : ∃ entry, g.cellMap.lookup p.2.type = some entry ∧
      Supported p entry := by
    rcases hacc with h | h | h
    · exact absurd (hbb.symm.trans h) Bool.false_ne_true
    · rw [hpolicy] at h
      exact absurd h (by decide)
    · exact h
  have hwrites := hw.cells p hp hbb entry hlook
  have hnodes : cellNodes g.cellMap g.blackboxInstances p = entryNodes p.1 p.2 entry := by
    simp [cellNodes, hbb, hlook, hsup.unsupported]
  rw [hnodes, declaredBits_eq hlook hwrites.single]
  exact ⟨writes_perm (CellMap.parsed_of_lookup hlook) hsup hwrites, claims_iff hsup hwrites⟩

/-- The cells write what they declare, but for the blackboxed ones. -/
theorem count_cells (y : YosysNetID) {l : List (String × ParsedCell)}
    (hl : l ⊆ g.parsed.cells.toList) :
    (l.flatMap fun p => (cellNodes g.cellMap g.blackboxInstances p).flatMap
        NormNode.writes).count y +
      ((l.filter fun p => g.blackboxInstances.contains p.1).flatMap fun p =>
        g.cellMap.declaredBits p.2).count y =
      (l.flatMap fun p => g.cellMap.declaredBits p.2).count y := by
  induction l with
  | nil => rfl
  | cons p l ih =>
    have hrest := ih fun q hq => hl (.tail _ hq)
    simp only [List.flatMap_cons, List.count_append]
    cases hbb : g.blackboxInstances.contains p.1 with
    | true =>
      have hnone : cellNodes g.cellMap g.blackboxInstances p = [] := by simp [cellNodes, hbb]
      simp only [List.filter_cons, hbb, if_true, List.flatMap_cons, List.count_append, hnone,
        List.flatMap_nil, List.count_nil]
      omega
    | false =>
      have hperm := (cellNodes_spec hpolicy hw (hl (.head _)) hbb).1
      simp only [List.filter_cons, hbb, Bool.false_eq_true, if_false, hperm.count_eq]
      omega

/-- Nothing claims a net that no cell writes. -/
theorem claims_iff_writes (y : YosysNetID) :
    (∃ n ∈ g.parsed.cells.toList.flatMap (cellNodes g.cellMap g.blackboxInstances), Claims n y) ↔
      y ∈ g.parsed.cells.toList.flatMap fun p =>
        (cellNodes g.cellMap g.blackboxInstances p).flatMap NormNode.writes := by
  have hcell : ∀ p ∈ g.parsed.cells.toList,
      ((∃ n ∈ cellNodes g.cellMap g.blackboxInstances p, Claims n y) ↔
        y ∈ (cellNodes g.cellMap g.blackboxInstances p).flatMap NormNode.writes) := by
    intro p hp
    cases hbb : g.blackboxInstances.contains p.1 with
    | true =>
      have hnone : cellNodes g.cellMap g.blackboxInstances p = [] := by simp [cellNodes, hbb]
      simp [hnone]
    | false =>
      obtain ⟨hperm, hclaims⟩ := cellNodes_spec hpolicy hw hp hbb
      rw [hclaims, hperm.mem_iff]
  constructor
  · rintro ⟨n, hn, hc⟩
    obtain ⟨p, hp, hn⟩ := List.mem_flatMap.1 hn
    exact List.mem_flatMap.2 ⟨p, hp, (hcell p hp).1 ⟨n, hn, hc⟩⟩
  · intro hy
    obtain ⟨p, hp, hy⟩ := List.mem_flatMap.1 hy
    obtain ⟨n, hn, hc⟩ := (hcell p hp).2 hy
    exact ⟨n, List.mem_flatMap.2 ⟨p, hp, hn⟩, hc⟩

omit hpolicy hw in
theorem flatMap_writes_sources (type : NodeType) (htype : type = .GATE ∨ type = .CONST)
    (gateType : GateType) (l : List YosysNetID) :
    (l.map (sourceNode 0 type gateType)).flatMap NormNode.writes = l := by
  have hone : ∀ y, (sourceNode 0 type gateType y).writes = [y] := by
    intro y
    rcases htype with rfl | rfl <;> rfl
  rw [List.flatMap_map]
  simp only [hone]
  exact List.flatMap_singleton' l

omit hpolicy hw in
theorem flatMap_writes_consts (ng : NormalizedGraph) :
    (constNodes ng).flatMap NormNode.writes =
      [const0NetId, const1NetId].filter fun y => ng.nets.contains y := by
  unfold constNodes
  cases h0 : ng.nets.contains const0NetId <;> cases h1 : ng.nets.contains const1NetId <;>
    simp only [List.filter_cons, h0, h1, if_true, if_false, Bool.false_eq_true, List.filter_nil] <;>
    rfl

/-- **The writers of a net**, as the netlist has them: its one driver, or the constant. -/
theorem count_writes {y : YosysNetID} (hy : y ∈ g.ng.nets)
    (hdriven : IsSignal y → g.parsed.inputBits.count y + (g.parsed.outputBits g.cellMap).count y = 1) :
    (g.ng.nodes.flatMap NormNode.writes).count y = 1 := by
  obtain ⟨⟨ppis, hnodes, hnd, hppis⟩, -⟩ := exists_nodes_eq g.normalized
  have hsum := count_cells hpolicy hw y (List.Subset.refl g.parsed.cells.toList)
  have hclaims := claims_iff_writes hpolicy hw y
  have hpseudo := (fromNetlist g.normalized).pseudo y
  have hbare : g.ng.nodes.flatMap NormNode.writes =
      (g.ng.nodes.map NormNode.bare).flatMap NormNode.writes := by
    rw [List.flatMap_map]
    rfl
  have hpis : g.ng.PIs.toList.Nodup :=
    TreeSet.distinct_toList.imp fun h heq => h (Std.compare_eq_iff_eq.2 heq)
  rw [hbare, hnodes]
  simp only [List.flatMap_append, List.count_append, List.flatMap_assoc,
    flatMap_writes_sources .GATE (.inl rfl), flatMap_writes_consts]
  rw [hpis.count, hnd.count]
  have hp := hppis y
  rw [mem_PIs_iff] at hp
  simp only [TreeSet.mem_toList, mem_PIs_iff]
  generalize (g.parsed.cells.toList.flatMap fun p =>
    (cellNodes g.cellMap g.blackboxInstances p).flatMap NormNode.writes) = written at hsum hclaims ⊢
  by_cases hsig : IsSignal y
  · have hone := hdriven hsig
    have hconst : ([const0NetId, const1NetId].filter fun y => g.ng.nets.contains y).count y = 0 := by
      refine List.count_eq_zero.2 fun hmem => ?_
      rcases List.mem_cons.1 (List.mem_filter.1 hmem).1 with h | h
      · exact hsig.1 h
      · exact hsig.2 (List.mem_singleton.1 h)
    rw [ParsedModule.outputBits, ← hsum] at hone
    rw [hconst]
    by_cases hin : y ∈ g.parsed.inputBits
    · have hpos := List.count_pos_iff.2 hin
      rw [if_pos hin, if_neg fun h => (hp.1 h).2.1 hin]
      omega
    have hzero := List.count_eq_zero.2 hin
    by_cases hwr : y ∈ written
    · have hpos := List.count_pos_iff.2 hwr
      obtain ⟨n, hn, hc⟩ := hclaims.2 hwr
      rw [if_neg hin, if_neg fun h => (hp.1 h).2.2 n hn hc]
      omega
    · -- no cell writes the net, so a blackboxed one declares it
      have hwzero := List.count_eq_zero.2 hwr
      have hbox : y ∈ (g.parsed.cells.toList.filter fun p =>
          g.blackboxInstances.contains p.1).flatMap fun p => g.cellMap.declaredBits p.2 :=
        List.count_pos_iff.1 (by omega)
      obtain ⟨p, hcell, hbit⟩ := List.mem_flatMap.1 hbox
      obtain ⟨hcell, hbb⟩ := List.mem_filter.1 hcell
      rw [if_neg hin, if_pos (hp.2 ⟨hpseudo.2 ⟨p, hcell, hbb, outputBit_of_declared hbit⟩, hin,
        fun n hn hc => hwr (hclaims.1 ⟨n, hn, hc⟩)⟩)]
      omega
  · have hin : y ∉ g.parsed.inputBits := fun h => hsig (hw.inputs y h)
    have hout : (g.parsed.outputBits g.cellMap).count y = 0 :=
      List.count_eq_zero.2 fun h => hsig (hw.outputs y h)
    rw [ParsedModule.outputBits, ← hsum] at hout
    have hnot : ¬ y ∈ g.ng.pseudoInputs := by
      intro h
      obtain ⟨p, hcell, hbb, hbit⟩ := hpseudo.1 h
      exact hsig (hw.blackboxed p hcell hbb y hbit)
    have hconst : ([const0NetId, const1NetId].filter fun y => g.ng.nets.contains y).count y = 1 := by
      refine List.count_eq_one_of_mem ((by decide : [const0NetId, const1NetId].Nodup).filter _) ?_
      refine List.mem_filter.2 ⟨?_, hy⟩
      rw [IsSignal, not_and_or, not_not, not_not] at hsig
      simpa using hsig
    rw [if_neg hin, if_neg fun h => hnot (hp.1 h).1, hconst]
    omega

end

/-- **Every net has exactly one writer**, when the cells write their declared outputs. -/
theorem nets_singly_written (g : CachedGraph) (hpolicy : g.unsupportedPolicy = "fail")
    (hdriven : g.SignalsDriven) (hw : g.OutputsWritten) :
    ∀ i < g.cg.netCount, (g.cg.nodes.map SimNode.out).count i = 1 := by
  intro i hi
  rcases Nat.lt_or_ge i g.stemCount with hlt | hge
  · have hget : g.low.index.c2y[i]? = some g.low.index.c2y[i] := List.getElem?_eq_getElem hlt
    have hmem := g.mem_nets_of_c2y hget
    rw [g.count_out_stem hget]
    exact count_writes hpolicy hw hmem (hdriven _ ((fromNetlist g.normalized).nets _ hmem))
  · exact g.count_out_branch hge hi

/-- A flip-flop with both its outputs in the cell map. -/
def flopCells : CellMap where
  patterns := [("DFF", .flop),
    ("DFFQN", { CellMapEntry.flop with outputs := TreeMap.ofList [("Q", "Q"), ("QN", "QN")] })]
  parsed := by decide

/-- A flip-flop that is connected at `Q`, with a constant data input. -/
def plainFlop : CachedGraph :=
  .load (.ofCells [("ck", 2)] [("q", 3)] [("f", .ofPins "DFF" [("D", -1), ("CK", 2), ("Q", 3)])])
    flopCells "fail" ∅ (by decide +kernel) (by decide +kernel)

theorem plainFlop_singly_written :
    2 < plainFlop.cg.netCount ∧ (plainFlop.cg.nodes.map SimNode.out).count 2 = 1 := by
  refine ⟨by decide +kernel, plainFlop.nets_singly_written rfl
    (by unfold SignalsDriven; decide +kernel) ⟨?_, ?_, ?_, ?_⟩ 2 (by decide +kernel)⟩
  · decide +kernel
  · decide +kernel
  · decide +kernel
  · intro p hp hbb
    have hnone : ∀ p ∈ plainFlop.parsed.cells.toList,
        plainFlop.blackboxInstances.contains p.1 = false := by decide +kernel
    exact absurd ((hnone p hp).symm.trans hbb) Bool.false_ne_true

/-- A flip-flop that is connected at `Q` and `QN`. -/
def doubleFlop : CachedGraph :=
  .load (.ofCells [("d", 2), ("ck", 3)] [("q", 4), ("n", 5)]
      [("f", .ofPins "DFFQN" [("D", 2), ("CK", 3), ("Q", 4), ("QN", 5)])])
    flopCells "fail" ∅ (by decide +kernel) (by decide +kernel)

/-- Every signal has its driver in the netlist, and no node writes the net on `QN`. -/
theorem doubleFlop_not_written : doubleFlop.unsupportedPolicy = "fail" ∧
    doubleFlop.SignalsDriven ∧ doubleFlop.cg.yosysToCompiled[(5 : YosysNetID)]? = some 3 ∧
    3 < doubleFlop.cg.netCount ∧ ∀ n ∈ doubleFlop.cg.nodes, n.out ≠ 3 := by
  refine ⟨rfl, ?_, ?_⟩
  · unfold SignalsDriven
    decide +kernel
  · decide +kernel

end CachedGraph

end FaultFlow
