/-
# Test vectors

`src/core/sim/state/test_vector.hpp`: the stimuli the simulators apply.  A map
from nets to values is read with `false` for a net it does not name, as both
simulators read it.
-/

import FaultFlow.Common.Types
import Std.Data.TreeMap.Basic

namespace FaultFlow

open Std (TreeMap)

/-- `TestCycle`; the loop over `settle_cycles` does not run for a negative
count, so the count is a natural number. -/
structure TestCycle where
  inputs : TreeMap YosysNetID Bool := ∅
  sampleOutputs : Bool := true
  settleCycles : Nat := 0
  faultActive : Bool := true

/-- `TestVector`. -/
structure TestVector where
  inputs : TreeMap YosysNetID Bool := ∅
  cycles : List TestCycle := []
  initialFfState : TreeMap Nat Bool := ∅
  testMode : TestMode := .FUNCTIONAL

namespace TestVector

/-- `is_sequential`. -/
def isSequential (vec : TestVector) : Bool := !vec.cycles.isEmpty

/-- `cycles_for`: the cycles, or one sampled cycle of the inputs. -/
def cyclesFor (vec : TestVector) : List TestCycle :=
  if vec.cycles.isEmpty then [{ inputs := vec.inputs, sampleOutputs := true }] else vec.cycles

/-- The vector of one launch and one capture cycle that both simulators build
for a transition fault: the fault is active in the capture cycle only. -/
def launchCapture (v1 v2 : TestVector) : TestVector :=
  { cycles := [{ inputs := v1.inputs, sampleOutputs := true, faultActive := false },
               { inputs := v2.inputs, sampleOutputs := true, faultActive := true }] }

end TestVector

end FaultFlow
