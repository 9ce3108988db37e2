/-
# Test modes of the wrapper boundary

`build_mode_config` of `src/core/ir/compiled_graph/graph_compiler.cpp`: the
control points, the observation points and the action of every wrapper net in
an IEEE 1500 test mode.
-/

import FaultFlow.IR.GraphCompiler

namespace FaultFlow

open GraphCompiler (pushUnique)

/-- `mc.wbr_action[net] = action`. -/
def ModeConfig.setAction (mc : ModeConfig) (net : CompiledNetIndex) (action : WbrAction) :
    ModeConfig :=
  { mc with wbrAction := Function.update mc.wbrAction net action }

/-- A control point: the net is stimulated and its driver is skipped. -/
def ModeConfig.control (mc : ModeConfig) (net : CompiledNetIndex) : ModeConfig :=
  { mc with stimulusNets := pushUnique mc.stimulusNets net }.setAction net .SKIP_STIMULUS

/-- An observation point. -/
def ModeConfig.observe (mc : ModeConfig) (net : CompiledNetIndex) : ModeConfig :=
  { mc with observableNets := pushUnique mc.observableNets net }

/-- The inactive side of a wrapper cell is driven to `0`. -/
def ModeConfig.safeZero (mc : ModeConfig) (net : CompiledNetIndex) : ModeConfig :=
  { mc with safeZeroNets := pushUnique mc.safeZeroNets net }.setAction net .FORCE_ZERO

/-- One wrapper cell in a mode other than `FUNCTIONAL`. -/
def modeWrapperCell (mode : TestMode) (mc : ModeConfig) (wc : CompiledWrapperCell) : ModeConfig :=
  if wc.scan then
    let active := if mode = .INTEST then wc.isInput else !wc.isInput
    let drive := if wc.isInput then wc.coreIdx else wc.sysIdx
    if active then mc.setAction drive .DRIVE_FROM_FF else mc.safeZero drive
  else if mode = .INTEST then
    if wc.isInput then mc.control wc.coreIdx
    else (mc.observe wc.coreIdx).safeZero wc.sysIdx
  else
    if wc.isInput then (mc.observe wc.sysIdx).safeZero wc.coreIdx
    else mc.control wc.sysIdx

/-- `build_mode_config`. -/
def buildModeConfig (cg : CompiledSimGraph) (mode : TestMode) : ModeConfig :=
  if mode = .FUNCTIONAL then
    { mode := mode, stimulusNets := cg.piNets, observableNets := cg.observable }
  else
    let mc := cg.wrapperCells.foldl (modeWrapperCell mode) { mode := mode }
    if mode = .EXTEST then
      let stimulus := cg.piNets.foldl pushUnique mc.stimulusNets
      let endpoints := cg.observable.filter fun po => po ∉ stimulus
      { mc with
        stimulusNets := stimulus
        observableNets := endpoints.foldl pushUnique mc.observableNets }
    else mc

end FaultFlow
