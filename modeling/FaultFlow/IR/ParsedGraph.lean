/-
# The parsed netlist and the cell map

`src/core/ir/parsed_graph/parsed_graph.hpp` (the top module of a Yosys netlist)
and `src/core/ir/normalized_graph/cell_map.{hpp,cpp}` (the description of every
library cell).  A `std::map` is a `Std.TreeMap`, iterated in key order.

`CellMap` carries what the reader `parse_entry` has checked, so an entry that
the reader would have rejected cannot be built.
-/

import FaultFlow.Common.Types
import Mathlib.Data.List.Basic
import Std.Data.TreeMap.Basic

namespace FaultFlow

open Std (TreeMap)

/-- `ParsedPort`. -/
structure ParsedPort where
  direction : String
  bits : List YosysNetID

/-- `ParsedCell`; the instance name is the key of `ParsedModule.cells`. -/
structure ParsedCell where
  type : String
  conns : TreeMap String (List YosysNetID)

/-- `ParsedModule`: the top module, which is all that the passes below read.  A
`ParsedNet` is the list of its bits. -/
structure ParsedModule where
  ports : TreeMap String ParsedPort
  cells : TreeMap String ParsedCell
  netnames : TreeMap String (List YosysNetID)

/-- The first bit connected to a pin, when the pin is connected at all. -/
def ParsedCell.front? (cell : ParsedCell) (pin : String) : Option YosysNetID :=
  (cell.conns[pin]?).bind List.head?

/-- `CellFFControl`. -/
structure CellFFControl where
  pin : String := ""
  polarity : Polarity := .ACTIVE_HIGH
  value : Nat := 0
  present : Bool := false
deriving DecidableEq, Repr

/-- `CellFFMetadata`. -/
structure CellFFMetadata where
  clock : String := ""
  data : String := ""
  output : String := "Q"
  scanIn : String := ""
  scanEnable : String := ""
  trigger : TriggerType := .POSEDGE
  scanEnablePolarity : Polarity := .ACTIVE_HIGH
  clear : CellFFControl := {}
  preset : CellFFControl := {}
  enable : CellFFControl := {}
  clearPresetConflictValue : Nat := 0
  present : Bool := false
  hasScan : Bool := false
deriving DecidableEq, Repr

/-- `CellWBRMetadata`. -/
structure CellWBRMetadata where
  present : Bool := false
  isInput : Bool := false
  corePin : String := ""
  sysPin : String := ""
  scan : Bool := false
  funcInPin : String := ""
  chainInPin : String := ""
  chainOutPin : String := ""
  scanEnablePin : String := ""
  clockPin : String := ""
deriving DecidableEq, Repr

/-- `CellMapEntry`, without the delay, which only reporting reads. -/
structure CellMapEntry where
  nodeType : NodeType := .GATE
  gateType : GateType := .BUF
  inputs : List String := []
  outputs : TreeMap String String := ∅
  ff : CellFFMetadata := {}
  wbr : CellWBRMetadata := {}
  unsupported : Bool := false

/-- What `parse_entry` has checked of an entry it returns.  `parse_gate_type`
has no name for `INPUT`, `DFF` and `ADDH_CO`; a flip-flop and a wrapper cell
come with their metadata; a scan wrapper is a flip-flop whose two descriptions
name the same pins. -/
def CellMapEntry.Parsed (e : CellMapEntry) : Prop :=
  e.gateType ∉ [GateType.INPUT, GateType.DFF, GateType.ADDH_CO] ∧
  (e.nodeType = .FF → e.ff.present = true) ∧
  (e.gateType ∈ [GateType.WBR_IN, GateType.WBR_OUT] → e.wbr.present = true) ∧
  (e.wbr.present = true → e.wbr.scan = true →
    e.nodeType = .FF ∧ e.ff.present = true ∧ e.ff.data = e.wbr.funcInPin ∧
    e.ff.scanIn = e.wbr.chainInPin ∧ e.ff.output = e.wbr.chainOutPin ∧
    e.ff.scanEnable = e.wbr.scanEnablePin ∧ e.ff.clock = e.wbr.clockPin)

instance (e : CellMapEntry) : Decidable e.Parsed := by
  unfold CellMapEntry.Parsed; infer_instance

/-- `CellMap`: the patterns in the order of the keys, each with an entry that
`parse_entry` accepts. -/
structure CellMap where
  patterns : List (String × CellMapEntry)
  parsed : ∀ p ∈ patterns, p.2.Parsed

/-- `pattern_match`: a trailing `*` makes the pattern a prefix. -/
def patternMatch (pattern name : String) : Bool :=
  if pattern.toList.getLast? = some '*' then
    pattern.toList.dropLast.isPrefixOf name.toList
  else pattern == name

/-- `CellMap::lookup`: the first pattern that matches. -/
def CellMap.lookup (map : CellMap) (rawCellType : String) : Option CellMapEntry :=
  (map.patterns.find? fun p => patternMatch p.1 rawCellType).map Prod.snd

/-- A looked-up entry is one the reader has checked. -/
theorem CellMap.parsed_of_lookup {map : CellMap} {raw : String} {e : CellMapEntry}
    (h : map.lookup raw = some e) : e.Parsed := by
  obtain ⟨p, hp, rfl⟩ := Option.map_eq_some_iff.1 h
  exact map.parsed p (List.mem_of_find?_eq_some hp)

end FaultFlow
