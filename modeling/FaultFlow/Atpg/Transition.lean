/-
# Transition faults in two frames

`solve_two_frame_transition` of `src/core/atpg/fault_solver.cpp` and its three
callers: a third copy of every net holds the good machine of the launch frame, and
clauses between the frames say how the capture inputs follow from the launch.  The
coupling that a caller passes as a function is here the list of the pairs of nets
it makes equal, the capture net first.

`build_scan_loc_view` and `held_real_pis` of `src/core/atpg/progressive_atpg.cpp`
read the pairs of a scan view off the port names.
-/

import FaultFlow.Atpg.FaultSolver

namespace FaultFlow.Atpg

open Lib
open Std (TreeMap)
open Std.Sat (Literal)

/-- The launch copy of a net, after the two capture copies. -/
def launchVar (netCount : ℕ) (net : CompiledNetIndex) : ℕ := nextVar netCount + net

def launchLit (netCount : ℕ) (net : CompiledNetIndex) : Literal ℕ := pos (launchVar netCount net)

variable (parsed : ParsedModule) (solver : SatSolver ℕ) (cg : CompiledSimGraph)
  (pis : List AtpgPiInfo) (fault : CompactFault)

/-- The three machines of one node. -/
def encodeFrames (masks : ConeMasks) (fault : CompactFault) (cnf : Cnf) (node : SimNode) :
    Except FlowError Cnf :=
  if node.type = .INPUT then return cnf
  else do
    let cnf ← addGateWhere true node.type (node.inputNets.map (launchLit cg.netCount))
      (launchLit cg.netCount node.out) cnf
    encodeNode masks fault cnf node

/-- One clause of the coupling: a capture net equals a launch net. -/
def coupleFrames (c : CompiledNetIndex × CompiledNetIndex) : Cnf :=
  addEquiv (freeLit c.1) (launchLit cg.netCount c.2)

/-- The good machine makes the transition at the fault net: `SA0` is slow to rise,
`SA1` slow to fall. -/
def edgeUnits : Cnf :=
  let captureGood := !(decide (fault.type = .SA1))
  let launch := launchLit cg.netCount fault.netIndex
  let capture := freeLit fault.netIndex
  addUnit (if !captureGood then launch else launch.negate) ++
    addUnit (if captureGood then capture else capture.negate)

/-- The clauses of `solve_two_frame_transition`. -/
def twoFrameCnf (blocked : List (List Char)) (couples : List (CompiledNetIndex × CompiledNetIndex))
    (blockLits : List (Literal ℕ)) (masks : ConeMasks) : Except FlowError Cnf := do
  let cnf ← cg.nodes.foldlM (encodeFrames cg masks fault) []
  let cnf := cnf ++ pis.flatMap (tiePi masks fault) ++ couples.flatMap (coupleFrames cg)
  let cnf ← blocked.foldlM (blockPattern "PI/PPI literals" blockLits) cnf
  addMiter (nextVar cg.netCount + cg.netCount) masks.observed
    (cnf ++ edgeUnits cg fault ++ addUnit (faultLit fault))

/-- The emitted launch and capture maps. -/
def emitFrames (model : ℕ → Bool) : TreeMap String Bool × TreeMap String Bool :=
  (emit pis (launchVar cg.netCount) model, emit pis freeVar model)

/-- `solve_two_frame_transition`. -/
def solveTwoFrameTransition (options : SatSolveOptions)
    (couples : List (CompiledNetIndex × CompiledNetIndex)) (launchOnlyBlocking : Bool)
    (extraBlock : List CompiledNetIndex) :
    Except FlowError (SolveOutcome (TreeMap String Bool × TreeMap String Bool)) :=
  let masks := buildConeMasks cg fault.netIndex cg.observable options.coneRestrict
  if masks.redundant then return { result := .UNSAT, out := none }
  else do
    let launchLits := pis.map fun pi => launchLit cg.netCount pi.compiled
    let blockLits := launchLits ++
      if !launchOnlyBlocking then pis.map fun pi => freeLit pi.compiled
      else extraBlock.map freeLit
    let cnf ← twoFrameCnf cg pis fault options.blockedPatterns couples blockLits masks
    return solveAndEmit solver (emitFrames cg pis) cnf

/-- `LocCouple`. -/
structure LocCouple where
  ppiCompiled : CompiledNetIndex
  ppoCompiled : CompiledNetIndex
deriving DecidableEq

/-- `LosCouple`. -/
structure LosCouple where
  capturePpiCompiled : CompiledNetIndex
  predPpiCompiled : CompiledNetIndex
deriving DecidableEq

/-- A held input keeps its value. -/
def holdPi (held : CompiledNetIndex) : CompiledNetIndex × CompiledNetIndex := (held, held)

/-- `solve_transition_fault`: broadside, with independent frames. -/
def solveTransitionFault (options : SatSolveOptions) :
    Except FlowError (SolveOutcome (TreeMap String Bool × TreeMap String Bool)) :=
  solveTwoFrameTransition solver cg pis fault options [] false []

/-- `solve_scan_transition_fault`: launch on capture. -/
def solveScanTransitionFault (couples : List LocCouple) (heldPis : List CompiledNetIndex)
    (fault : CompactFault) (options : SatSolveOptions) :
    Except FlowError (SolveOutcome (TreeMap String Bool × TreeMap String Bool)) :=
  solveTwoFrameTransition solver cg pis fault options
    (couples.map (fun c => (c.ppiCompiled, c.ppoCompiled)) ++ heldPis.map holdPi) true []

/-- `solve_scan_los_transition_fault`: launch on shift. -/
def solveScanLosTransitionFault (couples : List LosCouple)
    (headPpis heldPis : List CompiledNetIndex) (fault : CompactFault) (options : SatSolveOptions) :
    Except FlowError (SolveOutcome (TreeMap String Bool × TreeMap String Bool)) :=
  solveTwoFrameTransition solver cg pis fault options
    (couples.map (fun c => (c.capturePpiCompiled, c.predPpiCompiled)) ++ heldPis.map holdPi) true
    headPpis

/-! ## The couples of a scan view -/

/-- The prefix of a scan flip-flop's state. -/
def ppiPrefix : String := "__ppi_"

/-- The prefix of a scan flip-flop's next state. -/
def ppoPrefix : String := "__ppo_"

/-- `name.rfind(prefix, 0) == 0`. -/
def startsWith (name pre : String) : Bool := pre.toList.isPrefixOf name.toList

/-- `name.substr(prefix.size())`. -/
def dropPrefix (name pre : String) : String := String.ofList (name.toList.drop pre.length)

/-- `held_real_pis`: the compiled bits of the inputs that are no scan state. -/
def heldRealPis : List CompiledNetIndex :=
  parsed.ports.toList.flatMap fun p =>
    if p.2.direction = "input" ∧ startsWith p.1 ppiPrefix = false then
      p.2.bits.filterMap fun bit => cg.yosysToCompiled[bit]?
    else []

/-- `ScanLocView`. -/
structure ScanLocView where
  couples : List LocCouple
  heldPis : List CompiledNetIndex

/-- The couple of one port of the loop of `build_scan_loc_view`, if it is a scan
state. -/
def locCouple (name : String) (port : ParsedPort) : Except FlowError (List LocCouple) :=
  match port.bits with
  | [bit] =>
    if port.direction = "input" ∧ startsWith name ppiPrefix then
      match cg.yosysToCompiled[bit]? with
      | none => .ok []
      | some ppi =>
        let ppoName := ppoPrefix ++ dropPrefix name ppiPrefix
        match (parsed.ports[ppoName]?).map ParsedPort.bits with
        | some [ppoBit] =>
          match cg.yosysToCompiled[ppoBit]? with
          | some ppo => .ok [{ ppiCompiled := ppi, ppoCompiled := ppo }]
          | none => .error (.runtimeError ("scan LOC view: PPO net not compiled: " ++ ppoName))
        | _ => .error (.runtimeError ("scan LOC view: PPI without matching PPO: " ++ name))
    else .ok []
  | _ => .ok []

/-- `build_scan_loc_view`. -/
def buildScanLocView : Except FlowError ScanLocView := do
  let couples ← parsed.ports.toList.foldlM (fun couples p => do
    let c ← locCouple parsed cg p.1 p.2
    return couples ++ c) []
  return { couples := couples, heldPis := heldRealPis parsed cg }

end FaultFlow.Atpg
