/-
# The vocabulary of the core

`src/core/common/types.hpp`: gate and node types, test modes, flip-flop
configuration, and the enumerations a fault record carries
(`src/core/fault/effect/compact_fault.hpp`).

A Yosys net is an `Int` (`YosysNetID`), with `-1` and `-2` standing for the two
constants; a compiled net is a `Nat` (`CompiledNetIndex`).  The sentinel
`UNUSED_INPUT` of an input slot is `none`, and the sentinel `-1` of a net that
has no driver is `none` as well.
-/

import Mathlib.Data.Nat.Notation

namespace FaultFlow

/-- `YosysNetID`. -/
abbrev YosysNetID := Int

/-- `CompiledNetIndex`. -/
abbrev CompiledNetIndex := Nat

/-- `CONST0_NET_ID`: the net every constant `0`, `x` or `z` bit stands for. -/
def const0NetId : YosysNetID := -1

/-- `CONST1_NET_ID`: the net every constant `1` bit stands for. -/
def const1NetId : YosysNetID := -2

/-- `GateType`, in the order of the source. -/
inductive GateType where
  | INV | BUF | AND2 | AND2B | AND3 | AND4 | OR2 | OR3 | OR4
  | NAND2 | NAND3 | NAND4 | NOR2 | NOR3 | NOR4 | XOR2 | XOR3 | XNOR2 | XNOR3
  | AOI21 | AOI22 | OAI21 | OAI22 | MUX2 | MUX2_NI
  | A21O | A21OI | A21BO | A21BOI | A22O | A22OI | A211OI | A2111OI | A2111O
  | A221O | A221OI | A31O | A31OI | A32O | A32OI | A41OI
  | O21A | O21AI | O21BAI | O22A | O22AI | O211AI | O221AI | O31A | O31AI
  | O311A | O311AI | O32AI | O32A
  | NAND2B | NAND3B | NAND4B | NAND4BB | NOR2B | NOR3B | NOR4B | NOR4BB
  | OR3B | OR4B | ADDF_S | ADDF_CO | ADDH_S | ADDH_CO
  | CONST0 | CONST1 | INPUT | DFF
  | A211O | A222OI | A2BB2OI | A311O | A311OI | A41O | AND3B | AND4B
  | MUX2I | MUX4 | O211A | O21BA | O221A | O2111A | O2111AI | O2BB2AI | O2BB2A
  | O41A | O41AI | OR2B | OR4BB | AND4BB | A2BB2O
  | WBR_IN | WBR_OUT
deriving DecidableEq, Repr, Inhabited

/-- `NodeType`. -/
inductive NodeType where
  | GATE | FF | LATCH | CONST | TBUF | ICG
deriving DecidableEq, Repr, Inhabited

/-- `TestMode`: the IEEE 1500 mode a vector is applied in. -/
inductive TestMode where
  | FUNCTIONAL | INTEST | EXTEST
deriving DecidableEq, Repr, Inhabited

/-- `TriggerType`. -/
inductive TriggerType where
  | POSEDGE | NEGEDGE
deriving DecidableEq, Repr, Inhabited

/-- `Polarity`. -/
inductive Polarity where
  | ACTIVE_HIGH | ACTIVE_LOW
deriving DecidableEq, Repr, Inhabited

/-- `FFControlConfig`: an asynchronous control or a data enable.  `value` is the
`uint8_t` of the source, which the cell-map reader keeps at `0` or `1`. -/
structure FFControlConfig where
  net : YosysNetID := -1
  polarity : Polarity := .ACTIVE_HIGH
  value : Nat := 0
  present : Bool := false
deriving DecidableEq, Repr, Inhabited

/-- `FFConfig`: the flip-flop of a normalized node, over Yosys nets. -/
structure FFConfig where
  trigger : TriggerType := .POSEDGE
  clockNet : YosysNetID := -1
  dataNet : YosysNetID := -1
  outputNet : YosysNetID := -1
  scanInNet : YosysNetID := -1
  scanEnableNet : YosysNetID := -1
  clear : FFControlConfig := {}
  preset : FFControlConfig := {}
  enable : FFControlConfig := {}
  scanEnablePolarity : Polarity := .ACTIVE_HIGH
  hasScan : Bool := false
  clearPresetConflictValue : Nat := 0
deriving DecidableEq, Repr, Inhabited

/-- `CompiledFFConfig`: the flip-flop of a compiled node, whose nets are the
node's own input slots. -/
structure CompiledFFConfig where
  trigger : TriggerType := .POSEDGE
  clearPolarity : Polarity := .ACTIVE_HIGH
  presetPolarity : Polarity := .ACTIVE_HIGH
  clearValue : Nat := 0
  presetValue : Nat := 1
  clearPresetConflictValue : Nat := 0
  hasClear : Bool := false
  hasPreset : Bool := false
  hasScan : Bool := false
  hasEnable : Bool := false
  scanEnablePolarity : Polarity := .ACTIVE_HIGH
  enablePolarity : Polarity := .ACTIVE_HIGH
deriving DecidableEq, Repr, Inhabited

/-- `FaultType`. -/
inductive FaultType where
  | SA0 | SA1
deriving DecidableEq, Repr, Inhabited

/-- `FaultExclusion`. -/
inductive FaultExclusion where
  | NONE | CLOCK | RESET | BLACKBOX
deriving DecidableEq, Repr, Inhabited

/-- `SatSolveResult` (`src/core/atpg/sat_atpg.hpp`). -/
inductive SatSolveResult where
  | SAT | UNSAT | TIMEOUT | UNKNOWN
deriving DecidableEq, Repr, Inhabited

/-- The exceptions of `src/core/common/errors.hpp`, and the `std::runtime_error`
the later passes throw. -/
inductive FlowError where
  | ParseError (msg : String)
  | UnsupportedCellError (cell : String)
  | runtimeError (msg : String)
deriving DecidableEq, Repr

/-- The `repr` of a name, as the messages of the tools show it. -/
def quoted (name : String) : String := "'" ++ name ++ "'"

end FaultFlow
