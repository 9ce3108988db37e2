/-
# The partition of the faults of a campaign

Every statement that writes the table `faults`: the insertion of the enumerated faults
(`src/core/db/sqlite_store.cpp`, `src/core/atpg/progressive_atpg.cpp`), the exclusions of a
scan campaign (`faultflow/scan/site_resolution.py`), and what the rounds of ATPG mark.
`write_reports` (`faultflow/reporter/coverage.py`) then adds up counts that are to be a
partition of the faults.

A count may read three columns: `collapsed_into`, `exclusion` and `status`.  A run keeps the
first, sets the second by the keys of an exclusion map, and the third does not matter, so the
partition holds exactly if no exclusion map has the key of a collapsed fault
(`coverage_partition`).  The steps may come in any order.

The table holds the rows of one campaign.
-/

import FaultFlow.Db.Faults
import FaultFlow.Fault.Collapser
import FaultFlow.IR.CellLibraries
import FaultFlow.Lib.Counting
import FaultFlow.Scan.SiteResolution

namespace FaultFlow

open Std (TreeMap)

namespace Db

open Scan (MapTag)

/-! ## The report -/

/-- The sum that `write_reports` compares with the number of faults. -/
def Summary.invariant (s : Summary) : ℕ :=
  s.denominator + s.redundant + s.collapsed + s.excludedBlackbox + s.excludedClock +
    s.excludedReset + s.excludedScan + s.excludedCrossDomain + s.excludedWbrDecoupled

/-- The `CoverageError` of the checks. -/
inductive CoverageError where
  | denominatorZero
  | invariantFailed (totalRawFaults invariant : ℕ)
deriving DecidableEq, Repr

/-- The checks at the start of `write_reports`. -/
def checkReport (s : Summary) : Except CoverageError Unit :=
  if s.denominator = 0 then .error .denominatorZero
  else if s.totalRawFaults ≠ s.invariant then .error (.invariantFailed s.totalRawFaults s.invariant)
  else .ok ()

/-- The conditions of the counts that are added up. -/
def terms : List (FaultRow → Bool) :=
  [FaultRow.inDenominator, fun row => row.eligible && row.status = .redundant,
    fun row => row.collapsedInto.isSome, fun row => row.exclusion = .blackbox,
    fun row => row.exclusion = .clock, fun row => row.exclusion = .reset, FaultRow.excludedScan,
    fun row => row.exclusion = .crossDomain, fun row => row.exclusion = .wbrDecoupled]

/-- In how many terms a row is counted. -/
def FaultRow.timesCounted (row : FaultRow) : ℕ := terms.countP (· row)

/-! ## The statements -/

/-- `UPDATE faults SET … WHERE …`. -/
def update (where_ : FaultRow → Bool) (set_ : FaultRow → FaultRow) (rows : List FaultRow) :
    List FaultRow :=
  rows.map fun row => if where_ row then set_ row else row

/-- `enumerate_all`. -/
def enumerateAll (ng : NormalizedGraph) (cg : CompiledSimGraph) (opt : EnumeratorOptions)
    (collapsing : Bool) : List CompactFault :=
  let faults := enumerateFaults ng cg opt
  if collapsing then collapsePrimitiveFaults cg faults else faults

/-- `exclusion_name`. -/
def exclusionName : FaultExclusion → Exclusion
  | .NONE => .none
  | .CLOCK => .clock
  | .RESET => .reset
  | .BLACKBOX => .blackbox

variable (campaignId : ℕ)

/-- `bind_fault_insert`. -/
def faultInsert (cg : CompiledSimGraph) (detected : ℕ → Bool) (f : CompactFault × ℕ) :
    Except FlowError FaultRow := do
  let key ← canonicalSiteKey cg f.1.netIndex
  return { id := f.2, campaignId := campaignId, faultSiteKey := key
           netId := cg.yosysOf f.1.netIndex, compiledNetIndex := f.1.netIndex
           faultType := f.1.type
           status := if f.1.exclusion ≠ .NONE then .excluded
             else if detected f.2 then .detected else .undetected
           exclusion := exclusionName f.1.exclusion, collapsedInto := f.1.collapsedInto }

/-- The rows that `insert_faults_if_empty` writes, where no fault is detected yet, and
`write_faults`, where external vectors have been graded before. -/
def insertFaults (firstId : ℕ) (cg : CompiledSimGraph) (detected : ℕ → Bool)
    (faults : List CompactFault) : Except FlowError (List FaultRow) :=
  (faults.zipIdx firstId).mapM (faultInsert campaignId cg detected)

/-- The exclusion of a tag. -/
def tagExclusion : MapTag → Exclusion
  | .wbrDecoupled => .wbrDecoupled
  | .scanChain => .scanChain
  | .scanInternal => .scanInternal
  | .crossDomain => .crossDomain

/-- `boundary_map_missing`, with the site. -/
structure BoundaryMapMissing where
  siteKey : String
deriving DecidableEq, Repr

/-- The rows of the campaign with a site key. -/
def atSite (key : String) (row : FaultRow) : Bool :=
  row.campaignId = campaignId && row.faultSiteKey = key

/-- `apply_scan_execution_map`. -/
def applyScanExecutionMap (execution : TreeMap String CompiledNetIndex)
    (exclusions : TreeMap String MapTag) (rows : List FaultRow) :
    Except BoundaryMapMissing (List FaultRow) :=
  let rows := update (·.campaignId = campaignId) (fun row => { row with atpgCompiledNetIndex := none })
    rows
  let rows := execution.toList.foldl (fun rows p =>
    update (atSite campaignId p.1) (fun row => { row with atpgCompiledNetIndex := some p.2 }) rows)
    rows
  let rows := exclusions.toList.foldl (fun rows p =>
    update (atSite campaignId p.1) (fun row => { row with
      exclusion := tagExclusion p.2, status := .excluded, atpgCompiledNetIndex := none }) rows)
    rows
  let missing := rows.filter fun row =>
    row.campaignId = campaignId && row.eligible && row.atpgCompiledNetIndex.isNone
  match ((missing.map FaultRow.faultSiteKey).insertionSort (· ≤ ·)).head? with
  | some key => .error ⟨key⟩
  | none => .ok rows

/-- What the runner does to the table after the enumeration. -/
inductive Step where
  | applyScanExecutionMap (execution : TreeMap String CompiledNetIndex)
      (exclusions : TreeMap String MapTag)
  | markFaultsDetected (ids : List ℕ)
  | commitCandidate (detections : List ℕ)
  | markFaultRedundant (id : ℕ) (redundancyModelId : String)
  | precertifyRedundant (ids : List ℕ) (redundancyModelId : String)
  | markFaultProtocolUnresolved (id : ℕ)
  | terminationSweepQStems (qStemSiteKeys : List String)
  | invalidateStaleRedundant (redundancyModelId : String)

/-- One step.  Compaction writes other tables. -/
def Step.apply (rows : List FaultRow) : Step → Except BoundaryMapMissing (List FaultRow)
  | .applyScanExecutionMap execution exclusions =>
    Db.applyScanExecutionMap campaignId execution exclusions rows
  | .markFaultsDetected ids =>
    .ok (update (fun row => row.id ∈ ids && row.status = .undetected)
      (fun row => { row with status := .detected, protocolUnresolved := false }) rows)
  | .commitCandidate ids =>
    .ok (update (fun row => row.id ∈ ids && row.campaignId = campaignId)
      (fun row => { row with status := .detected, protocolUnresolved := false }) rows)
  | .markFaultRedundant id model =>
    .ok (update (fun row => row.id = id && row.status = .undetected)
      (fun row => { row with status := .redundant, redundancyModelId := some model }) rows)
  | .precertifyRedundant ids model =>
    .ok (update (fun row => row.id ∈ ids && row.status = .undetected && row.eligible)
      (fun row => { row with status := .redundant, redundancyModelId := some model }) rows)
  | .markFaultProtocolUnresolved id =>
    .ok (update (fun row => row.id = id && row.status ≠ .detected)
      (fun row => { row with protocolUnresolved := true }) rows)
  | .terminationSweepQStems keys =>
    .ok (update (fun row => row.campaignId = campaignId && row.status = .undetected &&
        row.eligible && row.faultSiteKey ∈ keys)
      (fun row => { row with protocolUnresolved := true }) rows)
  | .invalidateStaleRedundant model =>
    .ok (update (fun row => row.campaignId = campaignId && row.status = .redundant &&
        row.redundancyModelId ≠ some model)
      (fun row => { row with status := .undetected, redundancyModelId := none }) rows)

/-- The keys that a step excludes. -/
def Step.excludedKeys : Step → List String
  | .applyScanExecutionMap _ exclusions => exclusions.keys
  | _ => []

/-! ## What a report counts -/

theorem invariant_summaryOf (rows : List FaultRow) :
    (summaryOf rows).invariant = (rows.map FaultRow.timesCounted).sum := by
  unfold FaultRow.timesCounted
  rw [← Lib.sum_map_countP]
  simp only [terms, List.map_cons, List.map_nil, List.sum_cons, List.sum_nil, Summary.invariant,
    summaryOf]
  omega

/-- Every row is counted. -/
theorem FaultRow.one_le_timesCounted (row : FaultRow) : 1 ≤ row.timesCounted := by
  obtain ⟨_, _, _, _, _, _, status, exclusion, collapsed, _, _, _⟩ := row
  cases exclusion <;> cases collapsed <;> cases status <;>
    simp [timesCounted, terms, inDenominator, eligible, excludedScan]

/-- A row is counted twice if it is collapsed and excluded. -/
theorem FaultRow.timesCounted_eq_one_iff (row : FaultRow) :
    row.timesCounted = 1 ↔ (row.collapsedInto.isSome → row.exclusion = .none) := by
  obtain ⟨_, _, _, _, _, _, status, exclusion, collapsed, _, _, _⟩ := row
  cases exclusion <;> cases collapsed <;> cases status <;>
    simp [timesCounted, terms, inDenominator, eligible, excludedScan]

/-- **The sum is the number of faults exactly if no fault is counted twice.** -/
theorem total_eq_invariant_iff (rows : List FaultRow) :
    (summaryOf rows).totalRawFaults = (summaryOf rows).invariant ↔
      ∀ row ∈ rows, row.timesCounted = 1 := by
  rw [invariant_summaryOf, eq_comm]
  exact Lib.sum_map_eq_length_iff fun row _ => row.one_le_timesCounted

/-! ## What a run keeps -/

/-- A row before and after some steps: its key and its collapse are kept, and it has been
excluded if a step had its key. -/
structure Evolved (campaignId : ℕ) (keys : List String) (row row' : FaultRow) : Prop where
  campaign : row'.campaignId = row.campaignId
  siteKey : row'.faultSiteKey = row.faultSiteKey
  collapsed : row'.collapsedInto = row.collapsedInto
  excluded : row'.exclusion = .none ↔
    row.exclusion = .none ∧ ¬ (row.campaignId = campaignId ∧ row.faultSiteKey ∈ keys)

/-- The table before and after some steps. -/
def Evolves (keys : List String) (rows rows' : List FaultRow) : Prop :=
  ∃ f : FaultRow → FaultRow, rows' = rows.map f ∧ ∀ row, Evolved campaignId keys row (f row)

variable {campaignId} {keys keys' : List String} {rows rows' rows'' : List FaultRow}

theorem Evolves.refl : Evolves campaignId [] rows rows :=
  ⟨id, by simp, fun row => ⟨rfl, rfl, rfl, by simp⟩⟩

theorem Evolves.trans (h : Evolves campaignId keys rows rows')
    (h' : Evolves campaignId keys' rows' rows'') : Evolves campaignId (keys ++ keys') rows rows'' := by
  obtain ⟨f, rfl, hf⟩ := h
  obtain ⟨f', rfl, hf'⟩ := h'
  refine ⟨f' ∘ f, by rw [List.map_map], fun row => ?_⟩
  obtain ⟨hc, hk, hi, hx⟩ := hf row
  obtain ⟨hc', hk', hi', hx'⟩ := hf' (f row)
  refine ⟨hc'.trans hc, hk'.trans hk, hi'.trans hi, ?_⟩
  rw [Function.comp_apply, hx', hx, hc, hk, List.mem_append]
  tauto

/-- An update that leaves the columns of the counts alone. -/
theorem evolves_update {where_ : FaultRow → Bool} {set_ : FaultRow → FaultRow}
    (h : ∀ row, (set_ row).campaignId = row.campaignId ∧
      (set_ row).faultSiteKey = row.faultSiteKey ∧ (set_ row).collapsedInto = row.collapsedInto ∧
      (set_ row).exclusion = row.exclusion) :
    Evolves campaignId [] rows (update where_ set_ rows) := by
  refine ⟨_, rfl, fun row => ?_⟩
  obtain ⟨hc, hk, hi, hx⟩ := h row
  split
  · exact ⟨hc, hk, hi, by simp [hx]⟩
  · exact ⟨rfl, rfl, rfl, by simp⟩

/-- An exclusion. -/
theorem evolves_exclude (key : String) (tag : MapTag) :
    Evolves campaignId [key] rows (update (atSite campaignId key) (fun row => { row with
      exclusion := tagExclusion tag, status := .excluded, atpgCompiledNetIndex := none }) rows) := by
  refine ⟨_, rfl, fun row => ?_⟩
  have htag : tagExclusion tag ≠ .none := by cases tag <;> simp [tagExclusion]
  split <;> rename_i hsite <;> simp only [atSite, Bool.and_eq_true, decide_eq_true_eq] at hsite
  · exact ⟨rfl, rfl, rfl, by simp [htag, hsite]⟩
  · exact ⟨rfl, rfl, rfl, by simp [hsite]⟩

theorem evolves_applyScanExecutionMap {execution : TreeMap String CompiledNetIndex}
    {exclusions : TreeMap String MapTag}
    (h : applyScanExecutionMap campaignId execution exclusions rows = .ok rows') :
    Evolves campaignId exclusions.keys rows rows' := by
  unfold applyScanExecutionMap at h
  dsimp only at h
  split at h
  · cases h
  cases h
  rw [← TreeMap.map_fst_toList_eq_keys]
  refine Lib.foldl_visited (fun pre rows' => Evolves campaignId (pre.map Prod.fst) rows rows') ?_ ?_
  · refine Lib.foldl_invariant (Evolves campaignId [] rows) ?_ fun p _ rows' hrows => ?_
    · exact evolves_update fun row => ⟨rfl, rfl, rfl, rfl⟩
    · exact hrows.trans (evolves_update fun row => ⟨rfl, rfl, rfl, rfl⟩)
  · intro pre p post rows' _ hrows
    rw [List.map_append]
    exact hrows.trans (evolves_exclude p.1 p.2)

/-- **One step.** -/
theorem evolves_step {step : Step} (h : step.apply campaignId rows = .ok rows') :
    Evolves campaignId step.excludedKeys rows rows' := by
  cases step with
  | applyScanExecutionMap execution exclusions => exact evolves_applyScanExecutionMap h
  | _ =>
    cases h
    exact evolves_update fun row => ⟨rfl, rfl, rfl, rfl⟩

/-- **A run.** -/
theorem evolves_run {steps : List Step} (h : steps.foldlM (Step.apply campaignId) rows = .ok rows') :
    Evolves campaignId (steps.flatMap Step.excludedKeys) rows rows' := by
  refine Lib.foldlM_visited (fun pre rows' =>
    Evolves campaignId (pre.flatMap Step.excludedKeys) rows rows') h .refl ?_
  intro pre step post rows₁ rows₂ _ hrows hstep
  rw [List.flatMap_append, List.flatMap_singleton]
  exact hrows.trans (evolves_step hstep)

/-! ## The partition -/

variable {ng : NormalizedGraph} {cg : CompiledSimGraph} {opt : EnumeratorOptions}
  {collapsing : Bool}

/-- An enumerated fault that is collapsed is not excluded. -/
theorem exclusion_of_collapsed {f : CompactFault} (hf : f ∈ enumerateAll ng cg opt collapsing)
    (hj : f.collapsedInto.isSome) : f.exclusion = .NONE := by
  obtain ⟨j, hj⟩ := Option.isSome_iff_exists.1 hj
  unfold enumerateAll at hf
  split at hf
  · obtain ⟨rep, -, hx, -⟩ := (Collapser.justified_collapsePrimitiveFaults cg
      (Collapser.collapsedInto_enumerateFaults ng cg opt)).from_tables f hf j hj
    exact hx
  · rw [Collapser.collapsedInto_enumerateFaults ng cg opt f hf] at hj
    cases hj

/-- The rows of an enumeration: all of the campaign, and none collapsed and excluded. -/
theorem row_of_insertFaults {firstId : ℕ} {detected : ℕ → Bool}
    (h : insertFaults campaignId firstId cg detected (enumerateAll ng cg opt collapsing) = .ok rows)
    {row : FaultRow} (hrow : row ∈ rows) :
    row.campaignId = campaignId ∧ (row.collapsedInto.isSome → row.exclusion = .none) := by
  obtain ⟨p, hp, hins⟩ := (Lib.mem_of_mapM_eq_ok h).1 hrow
  obtain ⟨key, -, hret⟩ := Lib.bind_eq_ok.1 hins
  cases hret
  refine ⟨rfl, fun hj => ?_⟩
  rw [exclusion_of_collapsed (List.fst_mem_of_mem_zipIdx hp) hj]
  rfl

/-- **The partition of a campaign.**  After any run of steps on the enumerated faults, each fault
is counted in exactly one term, the terms add up to the number of faults, and the report does not
fail over it, exactly if no step excludes the site of a collapsed fault. -/
theorem coverage_partition {firstId : ℕ} {ng : NormalizedGraph} {cg : CompiledSimGraph}
    {opt : EnumeratorOptions} {collapsing : Bool} {detected : ℕ → Bool} {steps : List Step}
    (hins : insertFaults campaignId firstId cg detected (enumerateAll ng cg opt collapsing) =
      .ok rows)
    (hrun : steps.foldlM (Step.apply campaignId) rows = .ok rows') :
    ((∀ row ∈ rows', row.timesCounted = 1) ∧
      (summaryOf rows').totalRawFaults = (summaryOf rows').invariant ∧
      ∀ total sum, checkReport (summaryOf rows') ≠ .error (.invariantFailed total sum)) ↔
    ∀ row ∈ rows, row.collapsedInto.isSome → ∀ step ∈ steps,
      row.faultSiteKey ∉ step.excludedKeys := by
  obtain ⟨f, rfl, hf⟩ := evolves_run hrun
  -- a row of the final table is counted once if its key was not excluded
  have hrow : ∀ row ∈ rows, (f row).timesCounted = 1 ↔ (row.collapsedInto.isSome →
      ∀ step ∈ steps, row.faultSiteKey ∉ step.excludedKeys) := by
    intro row hrow
    obtain ⟨hcampaign, hnone⟩ := row_of_insertFaults hins hrow
    rw [FaultRow.timesCounted_eq_one_iff, (hf row).collapsed, (hf row).excluded]
    refine imp_congr_right fun hj => ?_
    simp [hnone hj, hcampaign]
  have hall : (∀ row ∈ rows.map f, row.timesCounted = 1) ↔ ∀ row ∈ rows,
      row.collapsedInto.isSome → ∀ step ∈ steps, row.faultSiteKey ∉ step.excludedKeys := by
    rw [List.forall_mem_map]
    exact forall₂_congr hrow
  rw [← hall]
  refine ⟨fun h => h.1, fun h => ⟨h, (total_eq_invariant_iff _).2 h, fun total sum heq => ?_⟩⟩
  unfold checkReport at heq
  rw [if_neg (not_not.2 ((total_eq_invariant_iff _).2 h))] at heq
  split at heq <;> cases heq

/-! ### An inverter beside a wrapper cell

The input `a` enters the core through a wrapper cell, and an inverter outside of the wrapper
reads it too.  The pin of the inverter is collapsed into its output.  In INTEST the net of `a`
is decoupled, the pin of the inverter with it. -/

section Bypass

open Scan

/-- An inverter and the cells that the scan tools insert. -/
def bypassCells : CellMap where
  patterns := [("INV", .gate .INV ["A"]), ("$faultflow_d_branch_buf", .gate .BUF ["A"]),
    ("$faultflow_observe_buf", .gate .BUF ["A"]), ("$wbc_in_faultflow", .wrapper true),
    (scanCellType, .seq ["CLK", "D", "SDI", "SE"] (CellLibraries.scanDff "SDI" "SE"))]
  parsed := by decide

/-- The stitched netlist. -/
def bypassGeneric : Module where
  ports := TreeMap.ofList [("a", Port.mk "input" [.net 3]), ("clk", .mk "input" [.net 2]),
    ("scan_en", .mk "input" [.net 5]), ("scan_in", .mk "input" [.net 4]),
    ("scan_out", .mk "output" [.net 8]), ("y", .mk "output" [.net 7])]
  cells := TreeMap.ofList
    [("ff", Cell.ofPins scanCellType [("CLK", 2), ("D", 6), ("SDI", 4), ("SE", 5), ("Q", 8)]),
      ("n", .ofPins "INV" [("A", 3), ("Y", 7)]),
      ("w", .ofPins "$wbc_in_faultflow" [("FROM_SYS", 3), ("TO_CORE", 6)])]

/-- The view of `build_scan_atpg_view`: `9` stands for the state of the flip-flop, `10` shows
its data. -/
def bypassView : Module where
  ports := TreeMap.ofList [("__ppi_ff", Port.mk "input" [.net 9]), ("__ppo_ff", .mk "output" [.net 10]),
    ("a", .mk "input" [.net 3]), ("y", .mk "output" [.net 7])]
  cells := TreeMap.ofList
    [("$ffbranch_ff", Cell.ofPins "$faultflow_d_branch_buf" [("A", 6), ("Y", 11)]),
      ("$ffobserve_ff", .ofPins "$faultflow_observe_buf" [("A", 11), ("Y", 10)]),
      ("n", .ofPins "INV" [("A", 3), ("Y", 7)]),
      ("w", .ofPins "$wbc_in_faultflow" [("FROM_SYS", 3), ("TO_CORE", 6)])]

def bypassGenericGraph : CachedGraph :=
  .load (Lib.resultOf bypassGeneric.parse (by decide +kernel)) bypassCells "fail" ∅
    (by decide +kernel) (by decide +kernel)

def bypassViewGraph : CachedGraph :=
  .load (Lib.resultOf bypassView.parse (by decide +kernel)) bypassCells "fail" ∅
    (by decide +kernel) (by decide +kernel)

/-- The view in INTEST. -/
def bypassFused : Module := (Lib.resultOf (fuseIntest bypassView) (by decide +kernel)).1

def bypassFusedGraph : CachedGraph :=
  .load (Lib.resultOf bypassFused.parse (by decide +kernel)) bypassCells "fail" ∅
    (by decide +kernel) (by decide +kernel)

/-- The sites of a graph. -/
def sitesOf (g : CachedGraph) : List SiteRow := (listSiteKeys g.cg).toOption.getD []

/-- The maps of a campaign on a view, with the decoupled nets. -/
def bypassMaps (view : Module) (g : CachedGraph) (decoupled : List YosysNetID) :
    TreeMap String CompiledNetIndex × TreeMap String MapTag :=
  Resolution.buildScanExecutionMap
    { generic := bypassGeneric
      view := ⟨view, sitesOf g⟩
      pseudoPorts := TreeMap.ofList [("ff", BoundaryEntry.mk 9 9 8 "net:6:branch:ff:D" 11 none)]
      ports := ⟨["scan_in"], "scan_en"⟩
      wbrRecords := (extractWbrCells bypassGeneric).toOption.getD []
      wbrDecoupledBits := decoupled } (sitesOf bypassGenericGraph)

/-- The steps: the maps are applied, and the faults of the core net are detected. -/
def bypassSteps (view : Module) (g : CachedGraph) (decoupled : List YosysNetID) : List Step :=
  [.applyScanExecutionMap (bypassMaps view g decoupled).1 (bypassMaps view g decoupled).2,
    .markFaultsDetected [9, 10]]

/-- The enumerated faults, collapsed. -/
def bypassRows : List FaultRow :=
  Lib.resultOf (insertFaults 1 1 bypassGenericGraph.cg (fun _ => false)
    (enumerateAll bypassGenericGraph.ng bypassGenericGraph.cg {} true)) (by decide +kernel)

theorem insertFaults_bypass : insertFaults 1 1 bypassGenericGraph.cg (fun _ => false)
    (enumerateAll bypassGenericGraph.ng bypassGenericGraph.cg {} true) = .ok bypassRows :=
  Lib.eq_ok_resultOf _ (by decide +kernel)

/-- Outside of INTEST the partition holds. -/
theorem bypass_partition :
    ∃ rows', (bypassSteps bypassView bypassViewGraph []).foldlM (Step.apply 1) bypassRows =
        .ok rows' ∧
      (∀ row ∈ rows', row.timesCounted = 1) ∧
      (summaryOf rows').totalRawFaults = (summaryOf rows').invariant :=
  have hrun := Lib.eq_ok_resultOf
    ((bypassSteps bypassView bypassViewGraph []).foldlM (Step.apply 1) bypassRows) (by decide +kernel)
  have h := (coverage_partition insertFaults_bypass hrun).2 (by decide +kernel)
  ⟨_, hrun, h.1, h.2.1⟩

/-- **In INTEST it does not.**  The two faults on the pin of the inverter are counted as
collapsed and as decoupled. -/
theorem bypass_not_partition :
    insertFaults 1 1 bypassGenericGraph.cg (fun _ => false)
      (enumerateAll bypassGenericGraph.ng bypassGenericGraph.cg {} true) = .ok bypassRows ∧
    ∃ rows', (bypassSteps bypassFused bypassFusedGraph [3]).foldlM (Step.apply 1) bypassRows =
        .ok rows' ∧
      checkReport (summaryOf rows') = .error (.invariantFailed 18 20) :=
  ⟨insertFaults_bypass, _, Lib.eq_ok_resultOf _ (by decide +kernel), by decide +kernel⟩

end Bypass

end Db

end FaultFlow
