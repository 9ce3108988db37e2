/-
# The coverage of one node

`_per_node` and its call in `write_reports` (`faultflow/reporter/coverage.py`).  The rows of a
campaign are grouped by their net, and the eligible faults of a net are counted by subtraction: all
faults, less the collapsed ones, less the excluded ones.  A row that is both would be subtracted
twice.  `write_reports` checks first that the counts of the campaign are a partition, and raises if
there is such a row, so wherever the coverage of a node is computed it is detected over eligible
faults (`perNode_coverage`).

The name of a net is a function of its number and is left out.
-/

import FaultFlow.Db.Partition
import Mathlib.Tactic.Linarith

namespace FaultFlow

open Std (TreeMap)

namespace Db

/-! ## The report of a node -/

/-- What `_per_node` reports of a net. -/
structure NodeReport where
  netId : YosysNetID
  totalFaults : ℕ
  detected : ℕ
  undetected : ℕ
  collapsed : ℕ
  excluded : ℕ
  coveragePercent : Option ℚ
deriving DecidableEq, Repr

namespace FaultRow

/-- `status = 'detected'`. -/
def isDetected (row : FaultRow) : Bool := row.status = .detected

/-- `collapsed_into IS NOT NULL`. -/
def isCollapsed (row : FaultRow) : Bool := row.collapsedInto.isSome

/-- `exclusion != 'none'`. -/
def isExcluded (row : FaultRow) : Bool := row.exclusion ≠ .none

end FaultRow

/-- `None if eligible == 0 else 100.0 * detected / eligible`. -/
def nodePercent (detected : ℕ) (eligible : ℤ) : Option ℚ :=
  if eligible = 0 then none else some (100 * detected / eligible)

/-- The row of one group. -/
def nodeReport (netId : YosysNetID) (rows : List FaultRow) : NodeReport :=
  let total := rows.length
  let detected := rows.countP FaultRow.isDetected
  let collapsed := rows.countP FaultRow.isCollapsed
  let excluded := rows.countP FaultRow.isExcluded
  { netId := netId
    totalFaults := total
    detected := detected
    undetected := rows.countP fun row => row.eligible && row.status = .undetected
    collapsed := collapsed
    excluded := excluded
    coveragePercent := nodePercent detected (total - collapsed - excluded) }

/-- The rows of a net. -/
def rowsAt (netId : YosysNetID) (rows : List FaultRow) : List FaultRow :=
  rows.filter (·.netId = netId)

/-- `_per_node`. -/
def perNode (rows : List FaultRow) : List NodeReport :=
  ((rows.map FaultRow.netId).dedup.insertionSort (· ≤ ·)).map fun netId =>
    nodeReport netId (rowsAt netId rows)

/-- The part of `write_reports` that computes the coverage of the nodes: the check of the counts,
then `_per_node`. -/
def writeReports (rows : List FaultRow) : Except CoverageError (List NodeReport) := do
  checkReport (summaryOf rows)
  return perNode rows

/-- Detected over eligible faults of a net. -/
def nodeCoverage (netId : YosysNetID) (rows : List FaultRow) : Option ℚ :=
  percent ((rowsAt netId rows).countP FaultRow.isDetected)
    ((rowsAt netId rows).countP FaultRow.eligible)

/-- Collapsed and excluded. -/
def FaultRow.subtractedTwice (row : FaultRow) : Bool := row.isCollapsed && row.isExcluded

/-! ## What a campaign can hold -/

/-- The faults that a step marks as detected are eligible: their ids were read from the rows with
`exclusion = 'none' AND collapsed_into IS NULL`. -/
def Step.MarksEligible (rows : List FaultRow) : Step → Prop
  | .markFaultsDetected ids => ∀ row ∈ rows, row.id ∈ ids → row.eligible
  | .commitCandidate ids => ∀ row ∈ rows, row.id ∈ ids → row.eligible
  | _ => True

/-- The tables of a campaign: enumerated faults, of which grading may have found eligible ones, and
then any steps of the runner. -/
inductive Reachable (campaignId : ℕ) : List FaultRow → Prop where
  | insert {firstId : ℕ} {ng : NormalizedGraph} {cg : CompiledSimGraph} {opt : EnumeratorOptions}
      {collapsing : Bool} {detected : ℕ → Bool} {rows : List FaultRow}
      (graded : ∀ p ∈ (enumerateAll ng cg opt collapsing).zipIdx firstId,
        detected p.2 → p.1.collapsedInto = none)
      (inserted : insertFaults campaignId firstId cg detected (enumerateAll ng cg opt collapsing) =
        .ok rows) : Reachable campaignId rows
  | step {rows rows' : List FaultRow} {step : Step} (before : Reachable campaignId rows)
      (marks : step.MarksEligible rows) (applied : step.apply campaignId rows = .ok rows') :
      Reachable campaignId rows'

variable {campaignId : ℕ} {rows rows' : List FaultRow}

/-- What is true of every row stays so under an update that keeps it. -/
theorem forall_mem_update {P : FaultRow → Prop} {where_ : FaultRow → Bool}
    {set_ : FaultRow → FaultRow} (h : ∀ row ∈ rows, P row)
    (hset : ∀ row ∈ rows, where_ row → P row → P (set_ row)) :
    ∀ row ∈ update where_ set_ rows, P row := by
  unfold update
  rw [List.forall_mem_map]
  intro row hrow
  split
  · exact hset row hrow ‹_› (h row hrow)
  · exact h row hrow

/-- A detected fault is eligible. -/
def DetectedEligible (rows : List FaultRow) : Prop :=
  ∀ row ∈ rows, row.status = .detected → row.eligible

theorem detectedEligible_insertFaults {firstId : ℕ} {ng : NormalizedGraph} {cg : CompiledSimGraph}
    {opt : EnumeratorOptions} {collapsing : Bool} {detected : ℕ → Bool}
    (hgraded : ∀ p ∈ (enumerateAll ng cg opt collapsing).zipIdx firstId,
      detected p.2 → p.1.collapsedInto = none)
    (h : insertFaults campaignId firstId cg detected (enumerateAll ng cg opt collapsing) =
      .ok rows) : DetectedEligible rows := by
  intro row hrow hstatus
  obtain ⟨p, hp, hins⟩ := (Lib.mem_of_mapM_eq_ok h).1 hrow
  obtain ⟨key, -, hret⟩ := Lib.bind_eq_ok.1 hins
  cases hret
  dsimp only at hstatus
  by_cases hx : p.1.exclusion = .NONE
  · rw [if_neg (not_not.2 hx)] at hstatus
    have hdet : detected p.2 = true := by
      by_contra hno
      rw [if_neg hno] at hstatus
      cases hstatus
    simp [FaultRow.eligible, hx, exclusionName, hgraded p hp hdet]
  · rw [if_pos hx] at hstatus
    cases hstatus

theorem detectedEligible_applyScanExecutionMap {execution : TreeMap String CompiledNetIndex}
    {exclusions : TreeMap String Scan.MapTag} (hrows : DetectedEligible rows)
    (h : applyScanExecutionMap campaignId execution exclusions rows = .ok rows') :
    DetectedEligible rows' := by
  unfold applyScanExecutionMap at h
  dsimp only at h
  split at h
  · cases h
  cases h
  -- an excluded row is no longer detected
  refine Lib.foldl_invariant DetectedEligible ?_ fun p _ rows hrows => ?_
  · refine Lib.foldl_invariant DetectedEligible ?_ fun p _ rows hrows => ?_
    · exact forall_mem_update hrows fun row _ _ h => h
    · exact forall_mem_update hrows fun row _ _ h => h
  · exact forall_mem_update hrows fun row _ _ _ hstatus => nomatch hstatus

theorem detectedEligible_step {step : Step} (hrows : DetectedEligible rows)
    (hmarks : step.MarksEligible rows) (h : step.apply campaignId rows = .ok rows') :
    DetectedEligible rows' := by
  cases step with
  | applyScanExecutionMap execution exclusions => exact detectedEligible_applyScanExecutionMap hrows h
  | markFaultsDetected ids | commitCandidate ids =>
    cases h
    refine forall_mem_update hrows fun row hrow hwhere _ _ => hmarks row hrow ?_
    simp only [Bool.and_eq_true, decide_eq_true_eq] at hwhere
    exact hwhere.1
  | markFaultProtocolUnresolved | terminationSweepQStems =>
    -- these leave status and eligibility alone
    cases h
    exact forall_mem_update hrows fun row _ _ h => h
  | markFaultRedundant | precertifyRedundant | invalidateStaleRedundant =>
    -- the new status is not `detected`
    cases h
    exact forall_mem_update hrows fun row _ _ _ hstatus => nomatch hstatus

/-- **In every campaign the detected faults are eligible.** -/
theorem Reachable.detectedEligible (h : Reachable campaignId rows) : DetectedEligible rows := by
  induction h with
  | insert hgraded hins => exact detectedEligible_insertFaults hgraded hins
  | step _ hmarks happly ih => exact detectedEligible_step ih hmarks happly

/-! ## The subtraction -/

/-- Every row is eligible, collapsed or excluded, and only a row that is both is subtracted
twice. -/
theorem countP_eligible (rows : List FaultRow) :
    rows.length + rows.countP FaultRow.subtractedTwice =
      rows.countP FaultRow.eligible + rows.countP FaultRow.isCollapsed +
        rows.countP FaultRow.isExcluded := by
  induction rows with
  | nil => rfl
  | cons row rows ih =>
    simp only [List.countP_cons, List.length_cons]
    have hrow : 1 + (if row.subtractedTwice = true then 1 else 0) =
        (if row.eligible = true then 1 else 0) + (if row.isCollapsed = true then 1 else 0) +
          if row.isExcluded = true then 1 else 0 := by
      obtain ⟨_, _, _, _, _, _, _, exclusion, collapsed, _, _, _⟩ := row
      cases exclusion <;> cases collapsed <;>
        simp [FaultRow.subtractedTwice, FaultRow.eligible, FaultRow.isCollapsed,
          FaultRow.isExcluded]
    omega

/-- A part is between none and all. -/
theorem percent_bounds {part whole : ℕ} {c : ℚ} (hle : part ≤ whole) (h : percent part whole = some c) :
    0 ≤ c ∧ c ≤ 100 := by
  unfold percent at h
  split at h
  · cases h
  cases h
  have hwhole : (0 : ℚ) < whole := by exact_mod_cast Nat.pos_of_ne_zero ‹_›
  have hpart : (part : ℚ) ≤ whole := by exact_mod_cast hle
  refine ⟨by positivity, ?_⟩
  rw [div_le_iff₀ hwhole]
  linarith

/-- A report is written only if no row is subtracted twice. -/
theorem subtractedTwice_of_checkReport (h : checkReport (summaryOf rows) = .ok ()) :
    ∀ row ∈ rows, row.subtractedTwice = false := by
  unfold checkReport at h
  split at h
  · cases h
  split at h
  · cases h
  rename_i htotal
  intro row hrow
  have hone := (total_eq_invariant_iff rows).1 (not_not.1 htotal) row hrow
  rw [FaultRow.timesCounted_eq_one_iff] at hone
  unfold FaultRow.subtractedTwice FaultRow.isCollapsed FaultRow.isExcluded
  cases hcollapsed : row.collapsedInto.isSome with
  | false => rfl
  | true => simp [hone hcollapsed]

/-- If no row is both, the subtraction counts the eligible rows. -/
theorem coveragePercent_nodeReport (netId : YosysNetID)
    (hrows : ∀ row ∈ rows, row.subtractedTwice = false) :
    (nodeReport netId (rowsAt netId rows)).coveragePercent = nodeCoverage netId rows := by
  have htwice : (rowsAt netId rows).countP FaultRow.subtractedTwice = 0 := by
    rw [List.countP_eq_zero]
    intro row hrow
    rw [hrows row (List.mem_filter.1 hrow).1]
    exact Bool.false_ne_true
  have hcount := countP_eligible (rowsAt netId rows)
  have heligible : ((rowsAt netId rows).length : ℤ) - (rowsAt netId rows).countP FaultRow.isCollapsed -
      (rowsAt netId rows).countP FaultRow.isExcluded = (rowsAt netId rows).countP FaultRow.eligible := by
    omega
  unfold nodeReport nodeCoverage nodePercent percent
  dsimp only
  rw [heligible]
  simp

/-- No eligible fault is left exactly if every fault of the net is collapsed or excluded. -/
theorem nodeCoverage_eq_none_iff (netId : YosysNetID) (rows : List FaultRow) :
    nodeCoverage netId rows = none ↔
      ∀ row ∈ rowsAt netId rows, row.isCollapsed ∨ row.isExcluded := by
  have hnone : nodeCoverage netId rows = none ↔
      (rowsAt netId rows).countP FaultRow.eligible = 0 := by
    unfold nodeCoverage percent
    split <;> simp_all
  rw [hnone, List.countP_eq_zero]
  refine forall₂_congr fun row _ => ?_
  simp only [FaultRow.eligible, FaultRow.isCollapsed, FaultRow.isExcluded, Bool.and_eq_true,
    decide_eq_true_eq, not_and_or, ne_eq]
  cases row.collapsedInto <;> simp

/-- **The coverage of a node.**  Wherever a campaign's nodes are reported, the coverage of each is
detected over eligible faults of its net, null exactly if every fault of the net is collapsed or
excluded, and otherwise between 0 and 100. -/
theorem perNode_coverage (h : Reachable campaignId rows) {nodes : List NodeReport}
    (hreport : writeReports rows = .ok nodes) {node : NodeReport} (hnode : node ∈ nodes) :
    node.coveragePercent = nodeCoverage node.netId rows ∧
    (node.coveragePercent = none ↔
      ∀ row ∈ rowsAt node.netId rows, row.isCollapsed ∨ row.isExcluded) ∧
    ∀ c, node.coveragePercent = some c → 0 ≤ c ∧ c ≤ 100 := by
  obtain ⟨_, hcheck, hret⟩ := Lib.bind_eq_ok.1 hreport
  cases hret
  obtain ⟨netId, -, rfl⟩ := List.mem_map.1 hnode
  have heq := coveragePercent_nodeReport netId (subtractedTwice_of_checkReport hcheck)
  refine ⟨heq, heq ▸ nodeCoverage_eq_none_iff netId rows, fun c hc => ?_⟩
  -- a detected fault is eligible, so the part is at most the whole
  refine percent_bounds (List.countP_mono_left fun row hrow hdet => ?_) (heq ▸ hc)
  exact h.detectedEligible row (List.mem_filter.1 hrow).1 (of_decide_eq_true hdet)

section Bypass

open Scan

/-- The maps of a campaign on the inverter beside the wrapper cell, applied outside of INTEST. -/
def bypassMapped : Except BoundaryMapMissing (List FaultRow) :=
  Step.apply 1 bypassRows (.applyScanExecutionMap (bypassMaps bypassView bypassViewGraph []).1
    (bypassMaps bypassView bypassViewGraph []).2)

def bypassMappedRows : List FaultRow := Lib.resultOf bypassMapped (by decide +kernel)

/-- One of the two faults of the core net is detected then. -/
def bypassDetectedRows : List FaultRow :=
  Lib.resultOf (Step.apply 1 bypassMappedRows (.markFaultsDetected [9])) (by decide +kernel)

theorem reachable_bypassDetectedRows : Reachable 1 bypassDetectedRows := by
  have hrows : Reachable 1 bypassRows :=
    .insert (fun _ _ hdet => absurd hdet Bool.false_ne_true) insertFaults_bypass
  have hmapped : Reachable 1 bypassMappedRows := by
    refine .step hrows ?_ (Lib.eq_ok_resultOf bypassMapped (by decide +kernel))
    exact trivial
  refine .step hmapped ?_ (Lib.eq_ok_resultOf
    (Step.apply 1 bypassMappedRows (.markFaultsDetected [9])) (by decide +kernel))
  show ∀ row ∈ bypassMappedRows, row.id ∈ [9] → row.eligible
  decide +kernel

/-- The report of that table is written, and shows one of two faults detected on the core net. -/
theorem bypass_perNode :
    writeReports bypassDetectedRows = .ok (perNode bypassDetectedRows) ∧
    ∃ node ∈ perNode bypassDetectedRows, node.netId = 6 ∧
      node.coveragePercent = nodeCoverage 6 bypassDetectedRows ∧ node.coveragePercent = some 50 := by
  have hreport : writeReports bypassDetectedRows = .ok (perNode bypassDetectedRows) := by
    decide +kernel
  refine ⟨hreport, nodeReport 6 (rowsAt 6 bypassDetectedRows), by decide +kernel, rfl, ?_,
    by decide +kernel⟩
  exact (perNode_coverage reachable_bypassDetectedRows hreport (by decide +kernel)).1

end Bypass

end Db

end FaultFlow
