/-
# Faults and fault batches

`src/core/fault/effect/compact_fault.hpp` and `fault_batch.hpp`, and the
enumeration `src/core/fault/enumerator/fault_enumerator.cpp`.  The sentinel of
`collapsed_into` is `none`; the campaign fields of a fault (`status`,
`detected_by_vector`) are left out, since simulation and test generation do not
read them.
-/

import FaultFlow.IR.GraphCompiler
import FaultFlow.Lib.Lanes

namespace FaultFlow

open Lib

/-- `CompactFault`. -/
structure CompactFault where
  netIndex : CompiledNetIndex
  saMask : Word := 0#64
  type : FaultType := .SA0
  bit : Nat := 1
  exclusion : FaultExclusion := .NONE
  collapsedInto : Option Nat := none
deriving DecidableEq

/-- `FaultBatch`: the first `size` faults, and the lanes they sit in. -/
structure FaultBatch where
  faults : List CompactFault := []
  mask : Word := 0#64

/-- `fault_value`: the value a stuck-at fault forces. -/
def CompactFault.value (f : CompactFault) : Bool := f.type != .SA0

namespace FaultBatch

/-- Fault `f` of the batch sits in lane `i`. -/
def InLane (b : FaultBatch) (i : ℕ) (f : CompactFault) : Prop :=
  f ∈ b.faults ∧ f.saMask = laneMask i

/-- A batch as the schedulers build it: at most 63 non-excluded faults in
distinct lanes `1` to `63`, and the mask of those lanes. -/
structure WellFormed (b : FaultBatch) : Prop where
  size_le : b.faults.length ≤ 63
  not_excluded : ∀ f ∈ b.faults, f.exclusion = .NONE
  lane : ∀ f ∈ b.faults, ∃ i, 1 ≤ i ∧ i < 64 ∧ f.saMask = laneMask i
  distinct : (b.faults.map CompactFault.saMask).Nodup
  mask_eq : b.mask = b.faults.foldl (fun m f => m ||| f.saMask) 0#64

end FaultBatch

/-- `EnumeratorOptions`. -/
structure EnumeratorOptions where
  includeClockFaults : Bool := false
  includeResetFaults : Bool := false

/-- The exclusion of the faults on a net. -/
def netExclusion (opt : EnumeratorOptions) (net : NormNet) : FaultExclusion :=
  if net.isClock && !opt.includeClockFaults then .CLOCK
  else if net.isReset && !opt.includeResetFaults then .RESET
  else if net.isBlackboxed then .BLACKBOX
  else .NONE

/-- `enumerate_faults`: stuck-at-0 and stuck-at-1 on every compiled net. -/
def enumerateFaults (ng : NormalizedGraph) (cg : CompiledSimGraph)
    (opt : EnumeratorOptions := {}) : List CompactFault :=
  (List.range cg.netCount).flatMap fun cidx =>
    let exclusion := match ng.nets[cg.compiledToYosys.getD cidx 0]? with
      | some net => netExclusion opt net
      | none => .NONE
    [.SA0, .SA1].map fun type =>
      { netIndex := cidx, type := type, saMask := 1#64, exclusion := exclusion }

end FaultFlow
