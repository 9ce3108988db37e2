/-
# The cone of a fault

`src/core/atpg/cone.cpp`, and `build_cone_masks` of
`src/core/atpg/fault_solver.cpp`: the nets a fault can reach, and the nets those
depend on.  A vector of flags is the list of the nets that are flagged, in the
order in which the source flags them.
-/

import FaultFlow.IR.GraphCompiler
import FaultFlow.Lib.Search

namespace FaultFlow.Atpg

open Lib

variable (cg : CompiledSimGraph) (faultNet : CompiledNetIndex) (driver : List (Option ℕ))

/-- `build_driver_index`. -/
def buildDriverIndex : List (Option ℕ) := GraphCompiler.driverIndex cg.netCount cg.nodes

/-- The row of a net in `fanout_targets`. -/
def fanoutTargets (net : CompiledNetIndex) : List CompiledNetIndex := cg.fanoutRows.getD net []

/-- The node `driver` names for a net. -/
def driverNode (net : CompiledNetIndex) : Option SimNode :=
  (driver[net]?).join.bind fun d => cg.nodes[d]?

/-- The inputs of the driver of a net; a net without a driver has none. -/
def driverInputs (net : CompiledNetIndex) : List CompiledNetIndex :=
  ((driverNode cg driver net).map SimNode.inputNets).getD []

/-- `FaultCone`. -/
structure FaultCone where
  inOutcone : List CompiledNetIndex
  inSupport : List CompiledNetIndex
  reachedObservables : List CompiledNetIndex

/-- The forward search of `extract_fault_cone`, over a stack. -/
def outcone : List CompiledNetIndex :=
  (search List.cons (fanoutTargets cg) cg.netCount ⟨[faultNet], [faultNet]⟩).seen

/-- The backward search, from all nets of the output cone. -/
def support (nets : List CompiledNetIndex) : List CompiledNetIndex :=
  (search List.cons (driverInputs cg driver) cg.netCount ⟨nets, nets.reverse⟩).seen

/-- `extract_fault_cone`. -/
def extractFaultCone (observable : List CompiledNetIndex) : FaultCone :=
  let out := outcone cg faultNet
  { inOutcone := out
    inSupport := support cg driver out
    reachedObservables := out.filter fun net => net ∈ observable }

/-- `ConeMasks`; the masks of the whole circuit are all ones. -/
structure ConeMasks where
  inOutcone : CompiledNetIndex → Bool
  inSupport : CompiledNetIndex → Bool
  observed : List CompiledNetIndex
  redundant : Bool := false

/-- `build_cone_masks`. -/
def buildConeMasks (observableSet : List CompiledNetIndex) (coneRestrict : Bool) : ConeMasks :=
  if coneRestrict then
    let flag := observableSet.filter fun obs => obs < cg.netCount
    let driver := if cg.driverIndex.isEmpty then buildDriverIndex cg else cg.driverIndex
    let cone := extractFaultCone cg faultNet driver flag
    { inOutcone := fun net => net ∈ cone.inOutcone
      inSupport := fun net => net ∈ cone.inSupport
      observed := cone.reachedObservables
      redundant := cone.reachedObservables.isEmpty }
  else
    { inOutcone := fun _ => true
      inSupport := fun _ => true
      observed := observableSet }

end FaultFlow.Atpg
