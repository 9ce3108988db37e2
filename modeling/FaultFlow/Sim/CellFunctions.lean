/-
# Every cell computes its function

An entry of a cell map gives a gate type and the input pins in the order in which the
formula of the type takes them.  The compiler does not use that order: `wire_inputs`
has its own table of pin names for every gate type, and a pin it does not know is not
wired at all.  Where the two agree (`InOrder`) the nodes of a cell compute the formula
on the values of the pins (`cells_compute`); where they do not, a pin is lost or two
are exchanged.
-/

import FaultFlow.Atpg.Machines
import FaultFlow.IR.CellLibraries
import FaultFlow.IR.Cells
import FaultFlow.IR.Wiring

namespace FaultFlow

open Std (TreeMap)

open GraphCompiler NormalizedGraph

/-- **The pins of the entry are in the order of the compiler's table**, for every
output: slot `k` is filled by the `k`-th input. -/
def CellMapEntry.InOrder (e : CellMapEntry) : Prop :=
  e.inputs.length ≤ 6 ∧ ∀ o ∈ e.outputs.toList, ∀ s : Fin 6,
    slotPin (outputType e.gateType o.1) (fun pin => decide (pin ∈ e.inputs)) s = e.inputs[s.val]?

instance (e : CellMapEntry) : Decidable e.InOrder := by
  unfold CellMapEntry.InOrder; infer_instance

/-- What the entry says an output computes from the values of the input pins. -/
def CellMapEntry.value (e : CellMapEntry) (logical : String) (x : String → Bool) : Bool :=
  evalGateScalar (outputType e.gateType logical) (e.inputs.map x)

namespace CachedGraph

variable (g : CachedGraph)

/-- The compiled net on a pin of a cell. -/
def pinNet (cell : ParsedCell) (pin : String) : Option CompiledNetIndex :=
  (cell.front? pin).bind fun y => g.cg.yosysToCompiled[y]?

/-- A slot reads a net, directly or through a branch. -/
def SlotReads (n : SimNode) (s : Fin 6) (m : CompiledNetIndex) : Prop :=
  n.ins s = some m ∨
    ∃ buf ∈ g.cg.nodes, buf.type = .BUF ∧ buf.inputNets = [m] ∧ n.ins s = some buf.out

/-- A node computes the output `o` of a cell: each declared pin is wired to the slot
of its position, and the node takes the value that the entry describes. -/
structure Computes (cell : ParsedCell) (entry : CellMapEntry) (o : String × String)
    (n : SimNode) : Prop where
  type : n.type = outputType entry.gateType o.1
  out : ∃ y, cell.front? o.2 = some y ∧ g.cg.yosysToCompiled[y]? = some n.out
  wired : ∀ k pin, entry.inputs[k]? = some pin →
    ∃ (s : Fin 6) (m : CompiledNetIndex), s.val = k ∧ g.pinNet cell pin = some m ∧ g.SlotReads n s m
  value : ∀ v, Lib.Assign.Solves g.cg.gateAssigns v →
    v n.out = entry.value o.1 fun pin => ((g.pinNet cell pin).map v).getD false

variable {g}

/-- A slot has the value of the net it reads. -/
theorem SlotReads.value {n : SimNode} {s : Fin 6} {m : CompiledNetIndex} (h : g.SlotReads n s m)
    {v : CompiledNetIndex → Bool} (hv : Lib.Assign.Solves g.cg.gateAssigns v) :
    (n.ins s).map v = some (v m) := by
  rcases h with h | ⟨buf, hbuf, htype, hins, h⟩
  · rw [h]; rfl
  · have hsrc : ¬ buf.IsSource := by simp [SimNode.IsSource, htype]
    have heq := CompiledSimGraph.solves_gateAssigns_iff.1 hv buf hbuf hsrc
    rw [htype, hins, List.map_singleton, evalGateScalar, evalScalar_buf] at heq
    rw [h, Option.map_some, heq]

/-- A list in six slots. -/
theorem slots_eq {α : Type*} {f : Fin 6 → Option α} {l : List α} (hlen : l.length ≤ 6)
    (h : ∀ s : Fin 6, f s = l[s.val]?) : [f 0, f 1, f 2, f 3, f 4, f 5].filterMap id = l := by
  simp only [h]
  match l, hlen with
  | [], _ => rfl
  | [_], _ => rfl
  | [_, _], _ => rfl
  | [_, _, _], _ => rfl
  | [_, _, _, _], _ => rfl
  | [_, _, _, _, _], _ => rfl
  | [_, _, _, _, _, _], _ => rfl

/-- A slot of a lowered node, after the split. -/
theorem exists_split_reads {k : ℕ} {ln : LoweredNode} (hln : g.low.nodes[k]? = some ln) :
    ∃ ins, g.split.nodes[k]? = some (ln.withIns ins) ∧ ∀ s,
      (ln.node.ins s = none → ins s = none) ∧
      ∀ m, ln.node.ins s = some m → g.SlotReads (ln.withIns ins).node s m := by
  obtain ⟨ins, hins, hslots⟩ := g.splitSpec.node k ln hln
  refine ⟨ins, hins, fun s => ?_⟩
  rcases hslots s with ⟨heq, -⟩ | ⟨m, j, hm, -, heq, hbranch, -⟩
  · exact ⟨fun h => heq.trans h, fun m hm => .inl (heq.trans hm)⟩
  · refine ⟨fun h => absurd (hm.symm.trans h) (Option.some_ne_none _), fun m' hm' => .inr ?_⟩
    obtain rfl := Option.some.inj (hm.symm.trans hm')
    exact ⟨(branchBuf m (g.low.index.c2y.length + j) (ln.level - 1)).node,
      g.mem_nodes.2 ⟨(_, g.low.nodes.length + j), rfl, hbranch.buf⟩, rfl, rfl, heq⟩

/-- A scan wrapper is a flip-flop. -/
theorem not_isScanWbr {entry : CellMapEntry} (hgate : entry.nodeType = .GATE)
    (hparsed : entry.Parsed) : isScanWbr entry ≠ true := by
  intro h
  rw [isScanWbr, Bool.and_eq_true] at h
  exact absurd (hgate.symm.trans (hparsed.2.2.2 h.1 h.2).1) (by decide)

section Cell

variable {p : String × ParsedCell} {entry : CellMapEntry} {node : NormNode}
  (hnode : node ∈ g.ng.nodes) (hbare : node.bare = cellNode p.1 p.2 entry)
  (hgate : entry.nodeType = .GATE) (hparsed : entry.Parsed)
  (hconn : ∀ pin ∈ entry.inputs, (p.2.front? pin).isSome) (horder : entry.InOrder)

include hnode in
/-- The nets of the input pins are numbered. -/
theorem covers_inputPins :
    g.low.index.Covers fun y => ∃ pin : String, node.inputPins[pin]? = some y := by
  rintro y ⟨pin, hpin⟩
  rw [g.lowered.index]
  exact (initialIndex_spec g.ng).2 y ((g.levelized.inv.closed node hnode).inputs pin y hpin)

include hnode hbare hconn in
/-- A declared pin has a compiled net. -/
theorem exists_pinNet {pin : String} (hpin : pin ∈ entry.inputs) :
    ∃ m, g.pinNet p.2 pin = some m ∧
      (node.inputPins[pin]?).bind (fun y => g.low.index.y2c[y]?) = some m := by
  have hins : node.inputPins = inputPinsOf p.2 entry := congrArg NormNode.inputPins hbare
  obtain ⟨y, hy⟩ := Option.isSome_iff_exists.1 (hconn pin hpin)
  have hget : node.inputPins[pin]? = some y := by
    rw [hins, getElem?_inputPinsOf, if_pos hpin, hy]
  obtain ⟨m, hm⟩ := covers_inputPins hnode y ⟨pin, hget⟩
  refine ⟨m, ?_, by rw [hget]; exact hm⟩
  rw [pinNet, hy, g.yosysToCompiled_eq]
  exact hm

include hnode hbare hgate hparsed hconn horder in
/-- **The node of one output.** -/
theorem computes_of_low {k : ℕ} {ln : LoweredNode} (hln : g.low.nodes[k]? = some ln)
    {o : String × String} (ho : o ∈ entry.outputs.toList) {y : YosysNetID}
    (hy : p.2.front? o.2 = some y) (hlow : ln.bare = loweredOutput g.low.index node (o.1, y)) :
    ∃ sn, g.split.nodes[k]? = some sn ∧ sn.owner = ln.owner ∧ g.Computes p.2 entry o sn.node := by
  have htype : node.gateType = entry.gateType := by
    have h := congrArg NormNode.gateType hbare
    simpa [cellNode, hgate, NormNode.bare] using h
  have hins : node.inputPins = inputPinsOf p.2 entry := congrArg NormNode.inputPins hbare
  have hlntype : ln.node.type = outputType entry.gateType o.1 := by
    have h := congrArg (fun l => l.node.type) hlow
    rw [← htype]
    exact h
  -- the slots of the lowered node, in the order of the entry
  have hslot : ∀ s, ln.node.ins s = (entry.inputs[s.val]?).bind (g.pinNet p.2) := by
    intro s
    have h := congrArg (fun l => l.node.ins s) hlow
    have hhas : (fun pin : String => (node.inputPins[pin]?).isSome) =
        fun pin => decide (pin ∈ entry.inputs) := by
      funext pin
      rw [hins, getElem?_inputPinsOf]
      by_cases hpin : pin ∈ entry.inputs
      · simp [hpin, hconn pin hpin]
      · simp [hpin]
    have hwire := wireInputs_slot (outputType node.gateType o.1) (covers_inputPins hnode) s
    rw [hhas, htype, horder.2 o ho s] at hwire
    have hln' : ln.node.ins s =
        (wireInputs (outputType node.gateType o.1) node.inputPins g.low.index).1 s := h
    rw [hln', htype, hwire]
    cases hin : entry.inputs[s.val]? with
    | none => rfl
    | some pin =>
      obtain ⟨m, hm, hm'⟩ := exists_pinNet hnode hbare hconn (List.mem_of_getElem? hin)
      rw [Option.bind_some, Option.bind_some, hm, hm']
  obtain ⟨ins, hsplit, hreads⟩ := g.exists_split_reads hln
  have hmem : (ln.withIns ins).node ∈ g.cg.nodes := g.mem_nodes.2 ⟨(_, k), rfl, hsplit⟩
  refine ⟨_, hsplit, rfl, hlntype, ⟨y, hy, ?_⟩, fun k pin hk => ?_, fun v hv => ?_⟩
  · have hout : node.outputPins[o.1]? = some y := by
      rw [show node.outputPins = outputPinsOf p.2 entry from congrArg NormNode.outputPins hbare]
      exact getElem?_outputPinsOf.2 ⟨o.2, ho, fun h => not_isScanWbr hgate hparsed h.1, hy⟩
    obtain ⟨i, hi⟩ := (initialIndex_spec g.ng).2 y
      ((g.levelized.inv.closed node hnode).outputs o.1 y hout)
    rw [← g.lowered.index] at hi
    have h : ln.node.out = (mapNet g.low.index y).1 := congrArg (fun l => l.node.out) hlow
    rw [mapNet_eq_of_some hi] at h
    rw [g.yosysToCompiled_eq, hi]
    exact congrArg some h.symm
  · have hk6 : k < 6 := lt_of_lt_of_le (List.getElem?_eq_some_iff.1 hk).1 horder.1
    obtain ⟨m, hm, -⟩ := exists_pinNet hnode hbare hconn (List.mem_of_getElem? hk)
    refine ⟨⟨k, hk6⟩, m, rfl, hm, (hreads ⟨k, hk6⟩).2 m ?_⟩
    rw [hslot, hk]
    exact hm
  · have hsrc : ¬ (ln.withIns ins).node.IsSource := by
      intro h
      rw [SimNode.IsSource, show (ln.withIns ins).node.type = _ from hlntype] at h
      have hnot := hparsed.1
      rcases isSource_outputType h with h | h
      · exact hnot (by simp [h])
      · exact hnot (by simp [h])
    have hvals : (ln.withIns ins).node.inputNets.map v =
        entry.inputs.map fun pin => ((g.pinNet p.2 pin).map v).getD false := by
      rw [SimNode.inputNets, List.map_filterMap]
      refine slots_eq (f := fun s => (ins s).map v) (by simpa using horder.1) fun s => ?_
      rw [List.getElem?_map]
      cases hin : entry.inputs[s.val]? with
      | none =>
        rw [(hreads s).1 (by rw [hslot, hin]; rfl)]
        rfl
      | some pin =>
        obtain ⟨m, hm, -⟩ := exists_pinNet hnode hbare hconn (List.mem_of_getElem? hin)
        have hread := (hreads s).2 m (by rw [hslot, hin]; exact hm)
        rw [Option.map_some, hm]
        exact hread.value hv
    rw [CompiledSimGraph.solves_gateAssigns_iff.1 hv _ hmem hsrc, CellMapEntry.value, hvals]
    exact congrArg (evalGateScalar · _) hlntype

end Cell

/-- **A cell computes what its entry describes**: every node that is compiled for the
cell computes one of its outputs, and every connected output has its node. -/
def CellComputes (g : CachedGraph) (p : String × ParsedCell) (entry : CellMapEntry) : Prop :=
  ∃ node ∈ g.ng.nodes, node.bare = cellNode p.1 p.2 entry ∧
    (∀ (k : ℕ) sn, g.split.nodes[k]? = some sn → sn.owner = some node.id →
      ∃ o ∈ entry.outputs.toList, g.Computes p.2 entry o sn.node) ∧
    ∀ o ∈ entry.outputs.toList, (p.2.front? o.2).isSome →
      ∃ n ∈ g.cg.nodes, g.Computes p.2 entry o n

theorem cellComputes_of_inOrder (g : CachedGraph) {p : String × ParsedCell}
    (hp : p ∈ g.parsed.cells.toList) (hbb : g.blackboxInstances.contains p.1 = false)
    {entry : CellMapEntry} (hlook : g.cellMap.lookup p.2.type = some entry)
    (huns : entry.unsupported = false) (hgate : entry.nodeType = .GATE)
    (hwbr : entry.wbr.present = true → ∀ pin ∈ entry.inputs, (p.2.front? pin).isSome)
    (horder : entry.InOrder) : g.CellComputes p entry := by
  obtain ⟨⟨ppis, hnodes, -, -⟩, hcells⟩ := exists_nodes_eq g.normalized
  have hparsed := CellMap.parsed_of_lookup hlook
  have hsup := (hcells p hp).1 entry hbb hlook huns
  have hconn : ∀ pin ∈ entry.inputs, (p.2.front? pin).isSome := by
    cases hpresent : entry.wbr.present with
    | true => exact hwbr hpresent
    | false => exact hsup.inputs hgate hpresent
  -- the cell has its node
  have hmem : cellNode p.1 p.2 entry ∈ g.ng.nodes.map NormNode.bare := by
    rw [hnodes]
    refine List.mem_append_left _ (List.mem_append_left _ (List.mem_append_left _ ?_))
    refine List.mem_flatMap.2 ⟨p, hp, ?_⟩
    simp [cellNodes, hlook, huns, hbb, entryNodes]
  obtain ⟨node, hnode, hbare⟩ := List.mem_map.1 hmem
  have htype : node.type = .GATE := (congrArg NormNode.type hbare).trans hgate
  have houts : node.outputPins = outputPinsOf p.2 entry := congrArg NormNode.outputPins hbare
  refine ⟨node, hnode, hbare, fun k sn hsn howner => ?_, fun o ho hsome => ?_⟩
  · rcases g.split_cases hsn with ⟨ln, ins, hln, rfl⟩ | ⟨j, stem, level, -, rfl⟩
    · obtain ⟨node', hnode', hlow, howner'⟩ := g.exists_lowerings (List.mem_of_getElem? hln)
      obtain rfl := g.levelized.inv.eq_of_id hnode' hnode
        (Option.some.inj (howner'.symm.trans howner))
      rw [lowerings, htype] at hlow
      obtain ⟨⟨pin, y⟩, hq, hq'⟩ := List.mem_map.1 hlow
      rw [TreeMap.mem_toList_iff_getElem?_eq_some, houts] at hq
      obtain ⟨lib, ho, -, hy⟩ := getElem?_outputPinsOf.1 hq
      obtain ⟨sn', hsn', -, hcomp⟩ :=
        computes_of_low hnode hbare hgate hparsed hconn horder hln ho hy hq'.symm
      obtain rfl := Option.some.inj (hsn'.symm.trans hsn)
      exact ⟨_, ho, hcomp⟩
    · cases howner
  · obtain ⟨y, hy⟩ := Option.isSome_iff_exists.1 hsome
    have hpin : (o.1, y) ∈ node.outputPins.toList := by
      rw [TreeMap.mem_toList_iff_getElem?_eq_some, houts]
      exact getElem?_outputPinsOf.2 ⟨o.2, ho, fun h => not_isScanWbr hgate hparsed h.1, hy⟩
    have hlow : loweredOutput g.low.index node (o.1, y) ∈ g.low.nodes.map LoweredNode.bare := by
      rw [g.low_nodes_eq]
      refine List.mem_flatMap.2 ⟨node, mem_ordered.2 hnode, ?_⟩
      rw [lowerings, htype]
      exact List.mem_map_of_mem hpin
    obtain ⟨ln, hln, hbare'⟩ := List.mem_map.1 hlow
    obtain ⟨k, hk⟩ := List.getElem?_of_mem hln
    obtain ⟨sn, hsn, -, hcomp⟩ :=
      computes_of_low hnode hbare hgate hparsed hconn horder hk ho hy hbare'
    exact ⟨sn.node, g.mem_nodes.2 ⟨(sn, k), rfl, hsn⟩, hcomp⟩

open CellLibraries in
/-- **The gates compute the functions of their entries** in every graph whose entries
are in order, and the shipped maps are in order but for the full adder and the AND gate
with an inverted input of Sky130 and the `MX2` multiplexers of OSU035. -/
theorem cells_compute (g : CachedGraph) :
    (∀ p ∈ g.parsed.cells.toList, g.blackboxInstances.contains p.1 = false →
      ∀ entry, g.cellMap.lookup p.2.type = some entry → entry.unsupported = false →
        entry.nodeType = .GATE →
        (entry.wbr.present = true → ∀ pin ∈ entry.inputs, (p.2.front? pin).isSome) →
        entry.InOrder → g.CellComputes p entry) ∧
    (∀ e ∈ sky130.patterns, e.2.nodeType = .GATE → e.2.unsupported = false →
      (e.2.InOrder ↔ e.1 ∉ ["sky130_fd_sc_hd__fa_*", "sky130_fd_sc_hd__and2b_*"])) ∧
    ∀ e ∈ osu035.patterns, e.2.nodeType = .GATE → e.2.unsupported = false →
      (e.2.InOrder ↔ e.1 ∉ ["MX2X1", "MX2X2", "MX2X4"]) := by
  refine ⟨fun p hp hbb entry hlook huns hgate hwbr horder => ?_, by decide +kernel,
    by decide +kernel⟩
  exact g.cellComputes_of_inOrder hp hbb hlook huns hgate hwbr horder

/-- Three entries of the Sky130 map. -/
def someSky130 : CellMap where
  patterns := [("sky130_fd_sc_hd__a21oi_*", .gate .A21OI ["A1", "A2", "B1"]),
    ("sky130_fd_sc_hd__and2b_*", .gateX .AND2B ["B", "A_N"]),
    ("sky130_fd_sc_hd__fa_*", .adder .ADDF_S ["A", "B", "CIN"] "SUM" "COUT")]
  parsed := by decide

/-- An AND-OR-INVERT gate. -/
def aoiGate : CachedGraph :=
  .load (.ofCells [("a", 2), ("b", 3), ("c", 4)] [("y", 5)]
      [("g", .ofPins "sky130_fd_sc_hd__a21oi_1" [("A1", 2), ("A2", 3), ("B1", 4), ("Y", 5)])])
    someSky130 "fail" ∅ (by decide +kernel) (by decide +kernel)

theorem aoiGate_computes : aoiGate.CellComputes
    ("g", .ofPins "sky130_fd_sc_hd__a21oi_1" [("A1", 2), ("A2", 3), ("B1", 4), ("Y", 5)])
    (.gate .A21OI ["A1", "A2", "B1"]) :=
  (cells_compute aoiGate).1 _ (.head _) (by decide +kernel) _ rfl rfl rfl (by simp [CellMapEntry.gate])
    (by decide +kernel)

/-- A full adder and an AND gate with an inverted input. -/
def brokenCells : CachedGraph :=
  .load (.ofCells [("a", 2), ("b", 3), ("ci", 4)] [("s", 5), ("co", 6), ("x", 7)]
      [("f", .ofPins "sky130_fd_sc_hd__fa_1"
          [("A", 2), ("B", 3), ("CIN", 4), ("SUM", 5), ("COUT", 6)]),
       ("g", .ofPins "sky130_fd_sc_hd__and2b_1" [("A_N", 2), ("B", 3), ("X", 7)])])
    someSky130 "fail" ∅ (by decide +kernel) (by decide +kernel)

/-- No node reads the carry input of the adder, so that `0 + 0 + 1` is `0`; and the AND
gate inverts `B` in the place of `A_N`. -/
theorem brokenCells_values :
    (∀ n ∈ brokenCells.cg.nodes, ∀ i ∈ n.inputNets, brokenCells.cg.yosysOf i ≠ 4) ∧
    Golden.simulateFaultFree brokenCells.cg
      { inputs := (∅ : TreeMap YosysNetID Bool).insert 4 true } 5 = some false ∧
    (CellMapEntry.adder .ADDF_S ["A", "B", "CIN"] "SUM" "COUT").value "S" (· == "CIN") = true ∧
    Golden.simulateFaultFree brokenCells.cg
      { inputs := (∅ : TreeMap YosysNetID Bool).insert 2 true } 7 = some true ∧
    (CellMapEntry.gateX .AND2B ["B", "A_N"]).value "X" (· == "A_N") = false := by
  decide +kernel

end CachedGraph

end FaultFlow
