/-
# The per-fault solvers

`src/core/atpg/fault_solver.cpp`: one SAT instance per fault.  The good and the
faulty machine are two copies of the circuit that share their inputs, and a model
of the clauses is a test.

`SatSolveOptions` is modelled without its limits, so a solver answers `SAT` or
`UNSAT`.  A pattern key, a `std::string` of the characters `0` and `1`, is a list
of characters.
-/

import FaultFlow.Atpg.CnfEncoder
import FaultFlow.Atpg.Cone
import FaultFlow.Fault.Effect
import FaultFlow.Sim.TestVector

namespace FaultFlow.Atpg

open Lib
open Std (TreeMap)
open Std.Sat (Literal)

/-- `SatSolveOptions`, without limits. -/
structure SatSolveOptions where
  blockedPatterns : List (List Char) := []
  coneRestrict : Bool := false
  fupRegionBudget : ℤ := 32

/-- `AtpgPiInfo`. -/
structure AtpgPiInfo where
  name : String
  yosysId : YosysNetID
  compiled : CompiledNetIndex
deriving DecidableEq

variable (cg : CompiledSimGraph) (pis : List AtpgPiInfo)

/-- `std::sort` by name; the order of equal names is not specified by the source. -/
def sortByName : List AtpgPiInfo := pis.insertionSort fun a b => a.name ≤ b.name

/-- The inputs of one port: a single bit keeps the bare name, the bits of a bus are
numbered, and a bit that is not compiled is left out. -/
def portPis (p : String × ParsedPort) : List AtpgPiInfo :=
  if p.2.direction = "input" then
    p.2.bits.zipIdx.filterMap fun b =>
      (cg.yosysToCompiled[b.1]?).map fun compiled =>
        { name := if p.2.bits.length = 1 then p.1 else p.1 ++ "[" ++ toString b.2 ++ "]"
          yosysId := b.1
          compiled := compiled }
  else []

/-- The pseudo-input of a blackboxed output. -/
def pseudoPi (cidx : CompiledNetIndex) : AtpgPiInfo :=
  { name := "__bbpi_" ++ toString (cg.yosysOf cidx), yosysId := cg.yosysOf cidx, compiled := cidx }

/-- `ordered_pis`. -/
def orderedPis (parsed : ParsedModule) (cg : CompiledSimGraph) : List AtpgPiInfo :=
  sortByName (parsed.ports.toList.flatMap (portPis cg)) ++
    sortByName (cg.pseudoPiNets.map (pseudoPi cg))

/-- `pattern_key`. -/
def patternKey (vector : TreeMap String Bool) (pis : List AtpgPiInfo) : List Char :=
  pis.map fun pi => if vector.getD pi.name false then '1' else '0'

/-- `assignment_from_pattern`. -/
def assignmentFromPattern (pattern : List Char) : Except FlowError (List Bool) :=
  if pattern.all fun c => c == '0' || c == '1' then .ok (pattern.map fun c => c == '1')
  else .error (.runtimeError "invalid blocked pattern key")

/-- Block one pattern; `what` names the literals in the message. -/
def blockPattern (what : String) (literals : List (Literal ℕ)) (cnf : Cnf) (blocked : List Char) :
    Except FlowError Cnf :=
  if blocked.length ≠ literals.length then
    .error (.runtimeError ("blocked pattern length mismatch: pattern has " ++
      toString blocked.length ++ " bits, expected " ++ toString literals.length ++ " " ++ what ++
      " (C++/Python PI-list divergence -- check for an unmapped multi-bit-port bit)"))
  else do
    let assignment ← assignmentFromPattern blocked
    let clause ← addBlockingClause literals assignment
    return cnf ++ clause

/-- Add the clauses of a gate where a mask asks for them. -/
def addGateWhere (mask : Bool) (type : GateType) (inputs : List (Literal ℕ)) (output : Literal ℕ)
    (cnf : Cnf) : Except FlowError Cnf :=
  if mask then do
    let clauses ← addGateCnf type inputs output
    return cnf ++ clauses
  else return cnf

/-- The good copy of a net. -/
def freeLit (net : CompiledNetIndex) : Literal ℕ := pos (freeVar net)

/-- The faulty copy of a net. -/
def faultyLit (net : CompiledNetIndex) : Literal ℕ := pos (faultyVar net)

/-- `faulty_input_lit`: outside the output cone the faulty machine reads the good
copy. -/
def faultyInputLit (inOutcone : CompiledNetIndex → Bool) (net : CompiledNetIndex) : Literal ℕ :=
  if inOutcone net then faultyLit net else freeLit net

/-- The two machines of one node. -/
def encodeNode (masks : ConeMasks) (fault : CompactFault) (cnf : Cnf) (node : SimNode) :
    Except FlowError Cnf :=
  if node.type = .INPUT then return cnf
  else do
    let cnf ← addGateWhere (masks.inSupport node.out) node.type
      (node.inputNets.map freeLit) (freeLit node.out) cnf
    addGateWhere (masks.inOutcone node.out && node.out != fault.netIndex) node.type
      (node.inputNets.map (faultyInputLit masks.inOutcone)) (faultyLit node.out) cnf

/-- The two copies of an input agree, where the fault can reach it. -/
def tiePi (masks : ConeMasks) (fault : CompactFault) (pi : AtpgPiInfo) : Cnf :=
  if pi.compiled ≠ fault.netIndex ∧ masks.inOutcone pi.compiled = true then
    addEquiv (freeLit pi.compiled) (faultyLit pi.compiled)
  else []

/-- The fault forces its net in the faulty machine. -/
def faultLit (fault : CompactFault) : Literal ℕ :=
  if fault.type = .SA1 then faultyLit fault.netIndex else (faultyLit fault.netIndex).negate

/-- The variables `next`, `next + 1`, … of the observed nets. -/
def diffLits (next : ℕ) (observed : List CompiledNetIndex) : List (Literal ℕ) :=
  (List.range' next observed.length).map pos

/-- The definitions of the difference variables. -/
def diffClauses (next : ℕ) (observed : List CompiledNetIndex) : Cnf :=
  (observed.zipIdx next).flatMap fun p => addXorDef (freeLit p.1) (faultyLit p.1) (pos p.2)

/-- The miter: the observed nets differ somewhere. -/
def addMiter (next : ℕ) (observed : List CompiledNetIndex) (cnf : Cnf) : Except FlowError Cnf :=
  if observed.isEmpty then
    .error (.runtimeError "SAT ATPG requires at least one observable output")
  else .ok (cnf ++ diffClauses next observed ++ [diffLits next observed])

/-- A solver's answer, with the map of inputs when there is a model; without one
the caller's map is left alone. -/
structure SolveOutcome (α : Type) where
  result : SatSolveResult
  out : Option α

/-- The emitted map: the value of a variable for each input. -/
def emit (var : CompiledNetIndex → ℕ) (model : ℕ → Bool) : TreeMap String Bool :=
  pis.foldl (fun out pi => out.insert pi.name (model (var pi.compiled))) ∅

/-- The clauses of `solve_stuck_at_fault`. -/
def stuckAtCnf (fault : CompactFault) (blocked : List (List Char)) (masks : ConeMasks) :
    Except FlowError Cnf := do
  let cnf ← cg.nodes.foldlM (encodeNode masks fault) []
  let cnf := cnf ++ pis.flatMap (tiePi masks fault)
  let cnf ← blocked.foldlM (blockPattern "PIs" (pis.map fun pi => freeLit pi.compiled)) cnf
  addMiter (nextVar cg.netCount) masks.observed (cnf ++ addUnit (faultLit fault))

/-- Ask the solver, and read the inputs off its model. -/
def solveAndEmit {α : Type} (solver : SatSolver ℕ) (read : (ℕ → Bool) → α) (cnf : Cnf) :
    SolveOutcome α :=
  match solver.solve cnf with
  | some model => { result := .SAT, out := some (read model) }
  | none => { result := .UNSAT, out := none }

/-- `solve_stuck_at_fault`. -/
def solveStuckAtFault (solver : SatSolver ℕ) (cg : CompiledSimGraph) (pis : List AtpgPiInfo)
    (fault : CompactFault) (options : SatSolveOptions) :
    Except FlowError (SolveOutcome (TreeMap String Bool)) :=
  let masks := buildConeMasks cg fault.netIndex cg.observable options.coneRestrict
  if masks.redundant then return { result := .UNSAT, out := none }
  else do
    let cnf ← stuckAtCnf cg pis fault options.blockedPatterns masks
    return solveAndEmit solver (emit pis freeVar) cnf

end FaultFlow.Atpg
