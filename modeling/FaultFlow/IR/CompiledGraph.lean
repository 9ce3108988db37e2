/-
# The compiled graph

`src/core/ir/compiled_graph/compiled_graph.hpp`: what the simulators, the fault
passes and the test generator work on.  The six input slots of a node are a
function of the slot number, with `none` for `UNUSED_INPUT`; the compressed
fanout rows (`fanout_offsets`, `fanout_targets`) are a list of rows; and the
`-1` of `driver_index` is `none`.
-/

import FaultFlow.Common.Types
import Mathlib.Algebra.GroupWithZero.Nat
import Mathlib.Data.List.Basic
import Mathlib.Data.Fintype.Basic
import Mathlib.Tactic.FinCases
import Std.Data.TreeMap.Basic

namespace FaultFlow

open Std (TreeMap)

/-- `SiteKind`. -/
inductive SiteKind where
  | STEM | BRANCH
deriving DecidableEq, Repr, Inhabited

/-- `NetSiteInfo`. -/
structure NetSiteInfo where
  kind : SiteKind := .STEM
  consumerInstance : String := ""
  inputPin : String := ""
deriving DecidableEq, Repr, Inhabited

/-- A node has input slots. -/
instance neZeroSlots : NeZero 6 := ⟨by decide⟩

/-- `SimNode`. -/
structure SimNode where
  type : GateType := .BUF
  ins : Fin 6 → Option CompiledNetIndex := fun _ => none
  out : CompiledNetIndex := 0
  ffCfg : Nat := 0
deriving DecidableEq

namespace SimNode

/-- The slots `in0` to `in5` in order. -/
def slots (n : SimNode) : List (Option CompiledNetIndex) :=
  [n.ins 0, n.ins 1, n.ins 2, n.ins 3, n.ins 4, n.ins 5]

/-- The nets a node reads, by slot. -/
def inputNets (n : SimNode) : List CompiledNetIndex := n.slots.filterMap id

/-- Node `n` reads net `i`. -/
def Reads (n : SimNode) (i : CompiledNetIndex) : Prop := ∃ s, n.ins s = some i

instance (n : SimNode) (i : CompiledNetIndex) : Decidable (n.Reads i) :=
  inferInstanceAs (Decidable (∃ s, n.ins s = some i))

theorem mem_slots {n : SimNode} {o : Option CompiledNetIndex} :
    o ∈ n.slots ↔ ∃ s, n.ins s = o := by
  simp only [slots, List.mem_cons, List.not_mem_nil, or_false]
  constructor
  · rintro (h | h | h | h | h | h)
    exacts [⟨0, h.symm⟩, ⟨1, h.symm⟩, ⟨2, h.symm⟩, ⟨3, h.symm⟩, ⟨4, h.symm⟩, ⟨5, h.symm⟩]
  · rintro ⟨s, rfl⟩
    fin_cases s <;> simp

theorem mem_inputNets {n : SimNode} {i : CompiledNetIndex} : i ∈ n.inputNets ↔ n.Reads i := by
  simp [inputNets, mem_slots, Reads]

/-- A node the evaluation loops skip: a source or a flip-flop. -/
def IsSource (n : SimNode) : Prop := n.type = .INPUT ∨ n.type = .DFF

instance (n : SimNode) : Decidable n.IsSource :=
  inferInstanceAs (Decidable (n.type = .INPUT ∨ n.type = .DFF))

end SimNode

/-- `CompiledWrapperCell`. -/
structure CompiledWrapperCell where
  coreIdx : CompiledNetIndex
  sysIdx : CompiledNetIndex
  isInput : Bool
  scan : Bool := false
  ctoIdx : Option CompiledNetIndex := none
deriving DecidableEq, Repr

/-- `CompiledSimGraph`. -/
structure CompiledSimGraph where
  nodes : List SimNode := []
  ffConfigs : List CompiledFFConfig := []
  ffNodes : List Nat := []
  fanoutRows : List (List CompiledNetIndex) := []
  levelStarts : List Nat := []
  observable : List CompiledNetIndex := []
  piNets : List CompiledNetIndex := []
  pseudoPiNets : List CompiledNetIndex := []
  netCount : Nat := 0
  yosysToCompiled : TreeMap YosysNetID CompiledNetIndex := ∅
  compiledToYosys : List YosysNetID := []
  netSites : CompiledNetIndex → NetSiteInfo := fun _ => {}
  driverIndex : List (Option Nat) := []
  wrapperCells : List CompiledWrapperCell := []

namespace CompiledSimGraph

variable (cg : CompiledSimGraph)

/-- The node indices of one level after the other, as the evaluation loops
visit them: from each `level_starts` entry up to the next. -/
def visitOrder : List Nat :=
  (cg.levelStarts.zip cg.levelStarts.tail).flatMap fun p => List.range' p.1 (p.2 - p.1)

/-- The nodes in the order an evaluation pass visits them: level by level, or in
storage order when there are no levels. -/
def passNodes : List SimNode :=
  if 2 ≤ cg.levelStarts.length then cg.visitOrder.filterMap fun i => cg.nodes[i]? else cg.nodes

/-- The flip-flop nodes in the order of `ff_nodes`. -/
def ffs : List SimNode := cg.ffNodes.filterMap fun i => cg.nodes[i]?

/-- `cg.ff_configs.at(node.ff_cfg)`; the compiler gives each flip-flop an entry. -/
def ffConfig (n : SimNode) : CompiledFFConfig := cg.ffConfigs.getD n.ffCfg {}

/-- `cg.compiled_to_yosys[i]`. -/
def yosysOf (i : CompiledNetIndex) : YosysNetID := cg.compiledToYosys.getD i 0

/-- Some node drives net `i`. -/
def Driven (i : CompiledNetIndex) : Prop := ∃ n ∈ cg.nodes, n.out = i

instance (cg : CompiledSimGraph) (i : CompiledNetIndex) : Decidable (cg.Driven i) :=
  inferInstanceAs (Decidable (∃ n ∈ cg.nodes, n.out = i))

/-- No flip-flop: the graph is combinational. -/
def Combinational : Prop := ∀ n ∈ cg.nodes, n.type ≠ .DFF

instance (cg : CompiledSimGraph) : Decidable cg.Combinational :=
  inferInstanceAs (Decidable (∀ n ∈ cg.nodes, n.type ≠ .DFF))

end CompiledSimGraph

/-- `WbrAction`: what the evaluation does at a wrapper node in a mode. -/
inductive WbrAction where
  | PASS | SKIP_STIMULUS | FORCE_ZERO | DRIVE_FROM_FF
deriving DecidableEq, Repr, Inhabited

/-- `ModeConfig`. -/
structure ModeConfig where
  mode : TestMode := .FUNCTIONAL
  stimulusNets : List CompiledNetIndex := []
  observableNets : List CompiledNetIndex := []
  safeZeroNets : List CompiledNetIndex := []
  wbrAction : CompiledNetIndex → WbrAction := fun _ => .PASS

end FaultFlow
