/-
# The incremental solver

`solve_stuck_at_fault_incremental` of `src/core/atpg/fault_solver.cpp`: the fan-in
cones of the observables a fault reaches are encoded a few at a time into one
solver, and every solve asks, by a clause that holds for that solve only, for a
difference on the observables added so far.  Before that, a cut around the fault
may already prove it redundant.

`encode_cone` marks a net and adds the clauses of its driver in one loop.  The walk
does not depend on the clauses, so it is split here into the walk (`Lib.visit`) and
the clauses of the nets it marks, in the same order.
-/

import FaultFlow.Atpg.FaultSolver

namespace FaultFlow.Atpg

open Lib
open Std (TreeMap)

/-- What the solver has been given: the permanent clauses, the nets whose drivers
are encoded (`enc`), and the next free variable. -/
structure Encoder where
  cnf : Cnf
  enc : List CompiledNetIndex := []
  next : ℕ

variable (solver : SatSolver ℕ) (cg : CompiledSimGraph) (outcone : List CompiledNetIndex)
  (faultNet : CompiledNetIndex)

/-- The forward search, over a queue: the nets a fault reaches, the nearest first. -/
def bfsOutcone : List CompiledNetIndex :=
  (search (fun t work => work ++ [t]) (fanoutTargets cg) cg.netCount ⟨[faultNet], [faultNet]⟩).seen

/-- Where the backward walk goes on from a net: nowhere at a source. -/
def backInputs (net : CompiledNetIndex) : List CompiledNetIndex :=
  match driverNode cg cg.driverIndex net with
  | none => []
  | some node => if node.type = .INPUT then [] else node.inputNets

/-- The clauses of the driver of one net. -/
def encodeNet (net : CompiledNetIndex) (cnf : Cnf) : Except FlowError Cnf :=
  match driverNode cg cg.driverIndex net with
  | none => return cnf
  | some node =>
    if node.type = .INPUT then
      return if net ∈ outcone ∧ net ≠ faultNet then cnf ++ addEquiv (freeLit net) (faultyLit net)
        else cnf
    else do
      let cnf ← addGateWhere true node.type (node.inputNets.map freeLit) (freeLit net) cnf
      addGateWhere (decide (net ∈ outcone) && net != faultNet) node.type
        (node.inputNets.map (faultyInputLit fun i => i ∈ outcone)) (faultyLit net) cnf

/-- `encode_cone`. -/
def encodeCone (st : Encoder) (root : CompiledNetIndex) : Except FlowError Encoder := do
  let marked := visit (backInputs cg) (7 * cg.netCount + 1) st.enc [root]
  let cnf ← marked.foldlM (fun cnf net => encodeNet cg outcone faultNet net cnf) st.cnf
  return { st with cnf := cnf, enc := st.enc ++ marked }

/-- Encode the cone of a net, and define a variable for the difference on it. -/
def watch (st : Encoder) (net : CompiledNetIndex) : Except FlowError Encoder := do
  let st ← encodeCone cg outcone faultNet st net
  return { st with
    cnf := st.cnf ++ addXorDef (freeLit net) (faultyLit net) (pos st.next), next := st.next + 1 }

/-- The cut of a region around the fault: the nets that are observed, or whose
fanout leaves the region. -/
def cutOf (observable region : List CompiledNetIndex) : List CompiledNetIndex :=
  region.filter fun r => r ∈ observable ∨ ∃ t ∈ fanoutTargets cg r, t ∉ region

/-- Solve with a clause over the variables from `first` on for this solve only
(`constrain`). -/
def solveWatched (st : Encoder) (first : ℕ) : Option (ℕ → Bool) :=
  solver.solve (st.cnf ++ [(List.range' first (st.next - first)).map pos])

/-- FUP, the fast proof that a fault is untestable: no net of the cut differs.  The
answer comes with what has been encoded. -/
def fastUntestable (observable outcone : List CompiledNetIndex) (faultNet : CompiledNetIndex)
    (budget : ℕ) (st : Encoder) : Except FlowError (Bool × Encoder) :=
  if 0 < budget ∧ budget < outcone.length then do
    let cut := cutOf cg observable (outcone.take budget)
    let st' ← cut.foldlM (watch cg outcone faultNet) st
    return (!cut.isEmpty && (solveWatched solver st' st.next).isNone, st')
  else return (false, st)

/-- `kMaxGroups`. -/
def maxGroups : ℕ := 5

/-- The sizes of all groups but the last: `1`, `2`, `4`, …. -/
def groupSizes : List ℕ := (List.range (maxGroups - 1)).map (2 ^ ·)

/-- The observables in groups of the given sizes, with the rest in a last group. -/
def groups {α : Type*} : List ℕ → List α → List (List α)
  | _, [] => []
  | [], obs => [obs]
  | size :: sizes, obs => obs.take size :: groups sizes (obs.drop size)

/-- The loop over the groups; the difference variables start at `first`. -/
def solveGroups (solver : SatSolver ℕ) (cg : CompiledSimGraph) (pis : List AtpgPiInfo)
    (outcone : List CompiledNetIndex) (faultNet : CompiledNetIndex) (first : ℕ) :
    Encoder → List (List CompiledNetIndex) →
      Except FlowError (SolveOutcome (TreeMap String Bool))
  | _, [] => return { result := .UNSAT, out := none }
  | st, group :: rest => do
    let st ← group.foldlM (watch cg outcone faultNet) st
    match solveWatched solver st first with
    | some model => return { result := .SAT, out := some (emit pis freeVar model) }
    | none => solveGroups solver cg pis outcone faultNet first st rest

/-- `solve_stuck_at_fault_incremental`. -/
def solveStuckAtFaultIncremental (pis : List AtpgPiInfo) (fault : CompactFault)
    (options : SatSolveOptions) : Except FlowError (SolveOutcome (TreeMap String Bool)) :=
  let observable := cg.observable.filter fun obs => obs < cg.netCount
  let outcone := bfsOutcone cg fault.netIndex
  let reached := outcone.filter fun net => net ∈ observable
  if reached.isEmpty then return { result := .UNSAT, out := none }
  else do
    let cnf ← options.blockedPatterns.foldlM
      (blockPattern "PIs" (pis.map fun pi => freeLit pi.compiled)) (addUnit (faultLit fault))
    let (redundant, st) ← fastUntestable solver cg observable outcone fault.netIndex
      options.fupRegionBudget.toNat { cnf := cnf, next := nextVar cg.netCount }
    if redundant then return { result := .UNSAT, out := none }
    else solveGroups solver cg pis outcone fault.netIndex st.next st (groups groupSizes reached)

end FaultFlow.Atpg
