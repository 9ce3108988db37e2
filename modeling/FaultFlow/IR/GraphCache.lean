/-
# Graphs as the front end builds them

`src/core/ir/compiled_graph/graph_cache.cpp`: a netlist is parsed, normalized
and compiled once, and the passes read the result.  A `CachedGraph` carries the
proof that its graphs are what `from_parsed` and `compile` return, so what is
proved of the two passes holds of every `CachedGraph`; the cache itself and its
key are not modelled.
-/

import FaultFlow.IR.SplitFacts

namespace FaultFlow

open Std (TreeMap TreeSet)
open GraphCompiler

/-- `CachedGraph`, with the arguments of `load_cached_graph`. -/
structure CachedGraph where
  parsed : ParsedModule
  cellMap : CellMap
  unsupportedPolicy : String
  blackboxInstances : TreeSet String
  ng : NormalizedGraph
  cg : CompiledSimGraph
  normalized :
    NormalizedGraph.fromParsed parsed cellMap unsupportedPolicy blackboxInstances = .ok ng
  compiled : compile ng = .ok cg

namespace CachedGraph

/-- `load_cached_graph` on a cache miss, when no pass throws. -/
def load (parsed : ParsedModule) (cellMap : CellMap) (policy : String) (bb : TreeSet String)
    (hng : (NormalizedGraph.fromParsed parsed cellMap policy bb).isOk = true)
    (hcg : (compile (Lib.resultOf _ hng)).isOk = true) : CachedGraph where
  parsed := parsed
  cellMap := cellMap
  unsupportedPolicy := policy
  blackboxInstances := bb
  ng := Lib.resultOf _ hng
  cg := Lib.resultOf _ hcg
  normalized := Lib.eq_ok_resultOf _ hng
  compiled := Lib.eq_ok_resultOf _ hcg

variable (g : CachedGraph)

/-- The normalized graph has its levels. -/
theorem levelized : g.ng.Levelized := NormalizedGraph.levelized_of_fromParsed g.normalized

/-- A compiled graph was lowered without an error. -/
theorem exists_lower : ∃ low, lower g.ng = .ok low ∧ assemble g.ng low = g.cg := by
  obtain ⟨low, hlow, hret⟩ := Lib.bind_eq_ok.1 g.compiled
  exact ⟨low, hlow, Except.ok.inj hret⟩

/-- The graph before branches are split. -/
def low : Lowering :=
  match lower g.ng with
  | .ok low => low
  | .error _ => {}

/-- The lowered nodes of the graph. -/
theorem lower_eq : lower g.ng = .ok g.low := by
  obtain ⟨low, hlow, -⟩ := g.exists_lower
  rw [CachedGraph.low, hlow]

/-- The graph is assembled from them. -/
theorem cg_eq : g.cg = assemble g.ng g.low := by
  obtain ⟨low, hlow, hcg⟩ := g.exists_lower
  rw [CachedGraph.low, hlow, hcg]

/-- The invariant of the lowering. -/
theorem lowered : LowerInv (initialIndex g.ng) (ordered g.ng) g.low :=
  lower_spec g.levelized g.lower_eq

/-- The node a lowered node comes from. -/
theorem exists_lowered {ln : LoweredNode} (hln : ln ∈ g.low.nodes) :
    ∃ node ∈ g.ng.nodes, Lowered g.low.index node ln := by
  obtain ⟨node, hnode, h⟩ := g.lowered.sound ln hln
  rw [g.lowered.index]
  exact ⟨node, mem_ordered.1 hnode, h⟩

/-- The index of the nets is one-to-one. -/
theorem index_valid : g.low.index.Valid := by
  rw [g.lowered.index]
  exact (initialIndex_spec g.ng).1

/-- The number of nets before branches are split. -/
def stemCount : ℕ := g.low.index.c2y.length

/-- The nets of a lowered node are stems. -/
theorem lt_stemCount_of_ins {ln : LoweredNode} (hln : ln ∈ g.low.nodes) {s : Fin 6}
    {m : CompiledNetIndex} (hm : ln.node.ins s = some m) : m < g.stemCount := by
  obtain ⟨node, -, h⟩ := g.exists_lowered hln
  cases h with
  | ff _ _ _ _ _ slots =>
    obtain ⟨y, -, hy⟩ := slots s m hm
    exact g.index_valid.lt hy
  | gate _ _ _ _ _ _ _ _ slots =>
    obtain ⟨y, -, hy⟩ := slots s m hm
    exact g.index_valid.lt hy

/-- What a lowered node drives is a stem. -/
theorem lt_stemCount_of_out {ln : LoweredNode} (hln : ln ∈ g.low.nodes) :
    ln.node.out < g.stemCount := by
  obtain ⟨node, -, h⟩ := g.exists_lowered hln
  cases h with
  | ff _ _ _ _ out _ => exact g.index_valid.lt out
  | gate _ _ _ _ _ _ out _ _ => exact g.index_valid.lt out

/-- The nodes of one owner are on one level. -/
theorem ownerLevels : OwnerLevels g.low.nodes := by
  intro a ha b hb _ hab
  obtain ⟨na, hna, hla⟩ := g.exists_lowered ha
  obtain ⟨nb, hnb, hlb⟩ := g.exists_lowered hb
  rw [hla.owner_eq, hlb.owner_eq] at hab
  rw [hla.level_eq, hlb.level_eq, g.levelized.inv.eq_of_id hna hnb (Option.some.inj hab)]

/-- The graph after branches are split. -/
def split : Splitting := splitFanoutBranches g.ng g.low.index g.low.nodes

/-- The level of the consumers of a branch. -/
def branchConsumer (j : ℕ) : ℕ := GraphCompiler.branchConsumer g.ng g.low.index g.low.nodes j

/-- What the split of the fanout does. -/
theorem splitSpec : SplitSpec g.low.nodes g.low.index.c2y g.branchConsumer g.split :=
  splitFanoutBranches_spec g.ng g.low.index g.ownerLevels fun _ hln _ _ hm =>
    g.lt_stemCount_of_ins hln hm

/-- The nodes of the graph are the split ones by level. -/
theorem nodes_eq : g.cg.nodes = (sortByLevel g.split.nodes).map LoweredNode.node := by
  rw [g.cg_eq]
  rfl

end CachedGraph

/-! ## Small netlists

Cells with single-bit pins, and a cell map for them, to write netlists with. -/

/-- A cell by its pins. -/
def ParsedCell.ofPins (type : String) (pins : List (String × YosysNetID)) : ParsedCell :=
  { type := type, conns := TreeMap.ofList (pins.map fun p => (p.1, [p.2])) }

/-- A module by its inputs, outputs and cells. -/
def ParsedModule.ofCells (inputs outputs : List (String × YosysNetID))
    (cells : List (String × ParsedCell)) : ParsedModule :=
  { ports := TreeMap.ofList (inputs.map (fun p => (p.1, ParsedPort.mk "input" [p.2])) ++
      outputs.map (fun p => (p.1, ParsedPort.mk "output" [p.2])))
    cells := TreeMap.ofList cells
    netnames := ∅ }

/-- The entry of a gate with one output `Y`. -/
def CellMapEntry.gate (gateType : GateType) (inputs : List String) : CellMapEntry :=
  { gateType := gateType, inputs := inputs, outputs := TreeMap.ofList [("Y", "Y")] }

/-- The entry of a flip-flop with pins `D`, `CK` and `Q`. -/
def CellMapEntry.flop : CellMapEntry :=
  { nodeType := .FF, inputs := ["D", "CK"], outputs := TreeMap.ofList [("Q", "Q")]
    ff := { clock := "CK", data := "D", present := true } }

/-- The entry of a transparent wrapper cell. -/
def CellMapEntry.wrapper (isInput : Bool) : CellMapEntry :=
  let input := if isInput then "FROM_SYS" else "FROM_CORE"
  let output := if isInput then "TO_CORE" else "TO_SYS"
  { gateType := if isInput then .WBR_IN else .WBR_OUT
    inputs := [input], outputs := TreeMap.ofList [(output, output)]
    wbr := { present := true, isInput := isInput
             corePin := if isInput then output else input
             sysPin := if isInput then input else output } }

/-- A cell map with an inverter, a buffer, an AND gate, a flip-flop and the two
transparent wrapper cells. -/
def smallCells : CellMap where
  patterns := [("INV", .gate .INV ["A"]), ("BUF", .gate .BUF ["A"]), ("AND2", .gate .AND2 ["A", "B"]),
    ("DFF", .flop), ("WBRIN", .wrapper true), ("WBROUT", .wrapper false)]
  parsed := by decide

end FaultFlow
