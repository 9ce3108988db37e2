/-
# The representatives of a scan campaign

`collapse_primitive_faults` chooses the representative of a class on the generic netlist,
and the scan exclusions come later, net by net (`faultflow/scan/site_resolution.py`).  A
collapsed fault is counted through its representative, so it drops out of the coverage if
an exclusion has the site of the representative and not its own
(`representatives_counted_iff`).  No site is lost that way if the exclusions follow the
links of a collapse backwards, which the choice of an input pin as the representative of a
compound cell does not respect (`sharedChain_unrepresented`).
-/

import FaultFlow.Db.Partition
import FaultFlow.Fault.CollapseChains

namespace FaultFlow

open Std (TreeMap)
open Lib Collapser

namespace Db

/-- The row that `collapsed_into` of row `i` holds. -/
def collapsedRow (rows : List FaultRow) (i : ℕ) : Option ℕ :=
  (rows[i]?).bind FaultRow.collapsedInto

/-- Every collapsed row that is kept has a representative that is kept. -/
def Represented (rows : List FaultRow) (kept : FaultRow → Prop) : Prop :=
  ∀ (i : ℕ) (row : FaultRow), rows[i]? = some row → row.collapsedInto.isSome → kept row →
    ∃ (j : ℕ) (rep : FaultRow), Reaches (collapsedRow rows) i j ∧ rows[j]? = some rep ∧
      rep.collapsedInto = none ∧ kept rep

/-- No step excludes the site of the row. -/
def Untouched (steps : List Step) (row : FaultRow) : Prop :=
  ∀ step ∈ steps, row.faultSiteKey ∉ step.excludedKeys

/-- The fault of a row. -/
def FaultRow.key (row : FaultRow) : FaultKey := (row.compiledNetIndex, row.faultType)

section

variable {campaignId firstId : ℕ} {ng : NormalizedGraph} {cg : CompiledSimGraph}
  {opt : EnumeratorOptions} {collapsing : Bool} {detected : ℕ → Bool} {steps : List Step}
  {rows rows' : List FaultRow} {faults : List CompactFault}

/-- A row is the record of the fault in its place. -/
theorem getElem?_insertFaults (hins : insertFaults campaignId firstId cg detected faults = .ok rows)
    {i : ℕ} {row : FaultRow} (hrow : rows[i]? = some row) :
    ∃ f, faults[i]? = some f ∧ row.campaignId = campaignId ∧ row.key = f.key ∧
      row.collapsedInto = f.collapsedInto ∧ row.exclusion = exclusionName f.exclusion := by
  have hi : i < faults.length := by
    rw [← List.length_zipIdx (i := firstId), (mapM_eq_ok_iff_forall₂.1 hins).length_eq]
    exact (List.getElem?_eq_some_iff.1 hrow).1
  obtain ⟨rec, hrec, hget⟩ := getElem?_of_mapM_eq_ok hins (k := i) (a := (faults[i], firstId + i))
    (by simp [hi])
  obtain rfl : rec = row := Option.some.inj (hget.symm.trans hrow)
  obtain ⟨key, -, hret⟩ := bind_eq_ok.1 hrec
  cases hret
  exact ⟨faults[i], List.getElem?_eq_getElem hi, rfl, rfl, rfl, rfl⟩

/-- A run keeps the links. -/
theorem Evolves.collapsedRow {keys : List String} (h : Evolves campaignId keys rows rows') :
    Db.collapsedRow rows' = Db.collapsedRow rows := by
  obtain ⟨f, rfl, hf⟩ := h
  funext i
  unfold Db.collapsedRow
  rw [List.getElem?_map]
  cases rows[i]? with
  | none => rfl
  | some row => exact (hf row).collapsed

/-- **A link leads over a collapse of one gate**, to a row that enumeration has not excluded. -/
theorem link_of_insertFaults
    (hins : insertFaults campaignId firstId cg detected (enumerateAll ng cg opt collapsing) =
      .ok rows) {i j : ℕ} (hlink : collapsedRow rows i = some j) :
    ∃ row rep, rows[i]? = some row ∧ rows[j]? = some rep ∧ rep.exclusion = .none ∧
      Collapses cg row.key rep.key := by
  obtain ⟨row, hrow, hj⟩ := Option.bind_eq_some_iff.1 hlink
  obtain ⟨f, hf, -, hkey, hcollapsed, -⟩ := getElem?_insertFaults hins hrow
  rw [hcollapsed] at hj
  have hstep : collapsedFrom (enumerateAll ng cg opt collapsing) i = some j := by
    rw [collapsedFrom, hf, Option.bind_some, hj]
  unfold enumerateAll at hf hstep
  split at hstep <;> rename_i hcollapsing
  · rw [if_pos hcollapsing] at hf
    obtain ⟨f', r, hf', hr, hnone, hc⟩ := (justified_collapsePrimitiveFaults cg
      (collapsedInto_enumerateFaults ng cg opt)).step hstep
    obtain rfl := Option.some.inj (hf'.symm.trans hf)
    obtain ⟨rep, hrep⟩ : ∃ rep, rows[j]? = some rep := by
      obtain ⟨rep, -, hrep⟩ := getElem?_of_mapM_eq_ok hins (k := j) (a := (r, firstId + j))
        (by simp [enumerateAll, hcollapsing, List.getElem?_zipIdx, hr])
      exact ⟨rep, hrep⟩
    obtain ⟨r', hr', -, hkey', -, hx⟩ := getElem?_insertFaults hins hrep
    rw [enumerateAll, if_pos hcollapsing] at hr'
    obtain rfl := Option.some.inj (hr'.symm.trans hr)
    refine ⟨row, rep, hrow, hrep, ?_, ?_⟩
    · rw [hx, hnone]
      rfl
    · rwa [hkey, hkey']
  · rw [if_neg hcollapsing] at hf
    rw [collapsedInto_enumerateFaults ng cg opt f (List.mem_of_getElem? hf)] at hj
    cases hj

/-- A row that a run leaves in the count. -/
theorem Evolves.kept_iff (h : ∀ row ∈ rows, row.campaignId = campaignId) {f : FaultRow → FaultRow}
    (hf : ∀ row, Evolved campaignId (steps.flatMap Step.excludedKeys) row (f row))
    {row : FaultRow} (hrow : row ∈ rows) :
    (f row).exclusion = .none ↔ row.exclusion = .none ∧ Untouched steps row := by
  rw [(hf row).excluded, h row hrow]
  simp [Untouched]

end

variable {campaignId firstId : ℕ} {g : CachedGraph} {opt : EnumeratorOptions} {collapsing : Bool}
  {detected : ℕ → Bool} {steps : List Step} {rows rows' : List FaultRow}

/-- The links of the rows are well-founded where no gates form a ring. -/
theorem wellFounded_collapsedRow (hring : g.cg.Ringless)
    (hins : insertFaults campaignId firstId g.cg detected (enumerateAll g.ng g.cg opt collapsing) =
      .ok rows) : WellFounded fun j i => collapsedRow rows i = some j := by
  let key : ℕ → FaultKey := fun i => ((rows[i]?).map FaultRow.key).getD (0, .SA0)
  refine Subrelation.wf (fun {j i} hlink => ?_) (InvImage.wf key (wellFounded_collapses hring))
  obtain ⟨row, rep, hrow, hrep, -, hc⟩ := link_of_insertFaults hins hlink
  simpa [InvImage, key, hrow, hrep] using hc

/-- Untouched rows are represented if the exclusions follow the collapses backwards. -/
theorem represented_of_collapses (hring : g.cg.Ringless)
    (hins : insertFaults campaignId firstId g.cg detected (enumerateAll g.ng g.cg opt collapsing) =
      .ok rows)
    (hback : ∀ row ∈ rows, ∀ rep ∈ rows, Collapses g.cg row.key rep.key → Untouched steps row →
      Untouched steps rep) : Represented rows (Untouched steps) := by
  intro i row hrow _ hkept
  obtain ⟨j, ⟨hreach, hend⟩, -⟩ := existsUnique_end (wellFounded_collapsedRow hring hins) i
  -- every row on the way is untouched
  have hway : ∃ rep, rows[j]? = some rep ∧ Untouched steps rep := by
    clear hend
    induction hreach with
    | refl => exact ⟨row, hrow, hkept⟩
    | tail _ hlink ih =>
      obtain ⟨mid, hmid, hkept'⟩ := ih
      obtain ⟨mid', rep, hmid', hrep, -, hc⟩ := link_of_insertFaults hins hlink
      obtain rfl := Option.some.inj (hmid'.symm.trans hmid)
      exact ⟨rep, hrep, hback _ (List.mem_of_getElem? hmid) _ (List.mem_of_getElem? hrep) hc hkept'⟩
  obtain ⟨rep, hrep, hkept'⟩ := hway
  rw [collapsedRow, hrep, Option.bind_some] at hend
  exact ⟨j, rep, hreach, hrep, hend, hkept'⟩

/-- **Every collapsed fault has a representative that counts**, after any run of steps on the
enumerated faults, exactly if for each collapsed fault whose site no step excludes the chain of
`collapsed_into` ends at a fault whose site no step excludes.  So it is where no gates form a
ring and the exclusions follow the collapses of every gate backwards. -/
theorem representatives_counted_iff
    (hins : insertFaults campaignId firstId g.cg detected (enumerateAll g.ng g.cg opt collapsing) =
      .ok rows)
    (hrun : steps.foldlM (Step.apply campaignId) rows = .ok rows') :
    (Represented rows' (·.exclusion = .none) ↔ Represented rows (Untouched steps)) ∧
    (g.cg.Ringless → (∀ row ∈ rows, ∀ rep ∈ rows, Collapses g.cg row.key rep.key →
      Untouched steps row → Untouched steps rep) → Represented rows' (·.exclusion = .none)) := by
  have hlinks := (evolves_run hrun).collapsedRow
  obtain ⟨f, rfl, hf⟩ := evolves_run hrun
  have hkept : ∀ {row}, row ∈ rows →
      ((f row).exclusion = .none ↔ row.exclusion = .none ∧ Untouched steps row) :=
    Evolves.kept_iff (fun row hrow => (row_of_insertFaults hins hrow).1) hf
  have hiff : Represented (rows.map f) (·.exclusion = .none) ↔
      Represented rows (Untouched steps) := by
    unfold Represented
    rw [hlinks]
    constructor
    · intro h i row hrow hcollapsed huntouched
      have hmem := List.mem_of_getElem? hrow
      obtain ⟨j, rep', hreach, hrep', hend, hx⟩ := h i (f row)
        (by rw [List.getElem?_map, hrow]; rfl) (by rwa [(hf row).collapsed])
        ((hkept hmem).2 ⟨(row_of_insertFaults hins hmem).2 hcollapsed, huntouched⟩)
      rw [List.getElem?_map] at hrep'
      obtain ⟨rep, hrep, rfl⟩ := Option.map_eq_some_iff.1 hrep'
      exact ⟨j, rep, hreach, hrep, (hf rep).collapsed.symm.trans hend,
        ((hkept (List.mem_of_getElem? hrep)).1 hx).2⟩
    · intro h i row' hrow' hcollapsed hx
      rw [List.getElem?_map] at hrow'
      obtain ⟨row, hrow, rfl⟩ := Option.map_eq_some_iff.1 hrow'
      rw [(hf row).collapsed] at hcollapsed
      obtain ⟨j, rep, hreach, hrep, hend, huntouched⟩ := h i row hrow hcollapsed
        ((hkept (List.mem_of_getElem? hrow)).1 hx).2
      -- the representative is not the row itself, so a link leads to it
      have hnone : rep.exclusion = .none := by
        cases hreach with
        | refl =>
          obtain rfl := Option.some.inj (hrep.symm.trans hrow)
          rw [hend] at hcollapsed
          cases hcollapsed
        | tail _ hlink =>
          obtain ⟨_, rep', -, hrep', hnone, -⟩ := link_of_insertFaults hins hlink
          obtain rfl := Option.some.inj (hrep'.symm.trans hrep)
          exact hnone
      refine ⟨j, f rep, hreach, by rw [List.getElem?_map, hrep]; rfl, ?_, ?_⟩
      · rw [(hf rep).collapsed, hend]
      · exact (hkept (List.mem_of_getElem? hrep)).2 ⟨hnone, huntouched⟩
  exact ⟨hiff, fun hring hback => hiff.2 (represented_of_collapses hring hins hback)⟩

/-- The representatives of the inverter beside a wrapper cell, outside of INTEST. -/
theorem bypass_representatives :
    ∃ rows', (bypassSteps bypassView bypassViewGraph []).foldlM (Step.apply 1) bypassRows =
        .ok rows' ∧ Represented rows' (·.exclusion = .none) := by
  have hrun := eq_ok_resultOf ((bypassSteps bypassView bypassViewGraph []).foldlM (Step.apply 1)
    bypassRows) (by decide +kernel)
  -- no gate keeps a fault on an excluded net
  have hkept : ∀ rep ∈ bypassRows, (∀ step ∈ bypassSteps bypassView bypassViewGraph [],
      rep.faultSiteKey ∉ step.excludedKeys) ∨
      ∀ n ∈ bypassGenericGraph.cg.nodes, ∀ p ∈ equivPairs n.type, netOf n p.2 ≠ some rep.key.1 := by
    decide +kernel
  refine ⟨_, hrun, (representatives_counted_iff insertFaults_bypass hrun).2
    (CompiledSimGraph.ringless_of_rising (fun i => [0, 0, 0, 0, 2, 2, 0, 1, 1].getD i 0)
      (by decide +kernel)) ?_⟩
  rintro row - rep hrep ⟨n, hn, p, hp, -, hm⟩ -
  exact (hkept rep hrep).resolve_right fun h => h n hn p hp hm.net

/-- A row whose link leads to an excluded row that is not collapsed. -/
theorem not_represented {rows : List FaultRow} {i j : ℕ} {x : Exclusion} (hx : x ≠ .none)
    (hi : (rows[i]?).map (fun row => (row.collapsedInto, row.exclusion)) = some (some j, .none))
    (hj : (rows[j]?).map (fun row => (row.collapsedInto, row.exclusion)) = some (none, x)) :
    ¬ Represented rows (·.exclusion = .none) := by
  obtain ⟨row, hrow, hcols⟩ := Option.map_eq_some_iff.1 hi
  obtain ⟨last, hlast, hcols'⟩ := Option.map_eq_some_iff.1 hj
  obtain ⟨hcollapsed, hnone⟩ := Prod.mk.inj hcols
  obtain ⟨hend, hexcl⟩ := Prod.mk.inj hcols'
  intro h
  obtain ⟨k, rep, hreach, hrep, hrepEnd, hkept⟩ := h i row hrow (by rw [hcollapsed]; rfl) hnone
  rcases hreach.cases_head with rfl | ⟨b, hlink, hrest⟩
  · obtain rfl := Option.some.inj (hrep.symm.trans hrow)
    rw [hcollapsed] at hrepEnd
    cases hrepEnd
  · rw [collapsedRow, hrow, Option.bind_some, hcollapsed] at hlink
    obtain rfl := Option.some.inj hlink
    rcases hrest.cases_head with rfl | ⟨c, hlink', -⟩
    · obtain rfl := Option.some.inj (hrep.symm.trans hlast)
      exact hx (hexcl.symm.trans hkept)
    · rw [collapsedRow, hlast, Option.bind_some, hend] at hlink'
      cases hlink'

/-! ### A chain net that the core reads

The flip-flop of a wrapper cell drives the end of the wrapper chain and pin `A1` of an
OR-AND-invert cell, whose pins `A1` and `A2` stuck at one form a class with `A1` in front. -/

section SharedChain

open Scan

/-- An OR-AND-invert cell and the cells of a wrapper chain. -/
def sharedCells : CellMap where
  patterns := [("$faultflow_observe_buf", .gate .BUF ["A"]),
    ("$wbc_in_scan_faultflow", CellLibraries.scanWrapper true "FROM_SYS" "TO_CORE"),
    ("o21ai", .gate .O21AI ["A1", "A2", "B1"])]
  parsed := by decide

/-- The netlist; it has no other flip-flop, so the view of the campaign is the same. -/
def sharedChain : Module where
  ports := TreeMap.ofList [("a", Port.mk "input" [.net 3]), ("b", .mk "input" [.net 4]),
    ("clk", .mk "input" [.net 2]), ("wbr_se", .mk "input" [.net 6]),
    ("wbr_si", .mk "input" [.net 5]), ("wbr_so", .mk "output" [.net 8]),
    ("y", .mk "output" [.net 9])]
  cells := TreeMap.ofList
    [("g", Cell.ofPins "o21ai" [("A1", 8), ("A2", 4), ("B1", 7), ("Y", 9)]),
      ("w", .ofPins "$wbc_in_scan_faultflow"
        [("CLK", 2), ("FROM_SYS", 3), ("CTI", 5), ("SE", 6), ("TO_CORE", 7), ("CTO", 8)])]

def sharedGraph : CachedGraph :=
  .load (resultOf sharedChain.parse (by decide +kernel)) sharedCells "fail" ∅
    (by decide +kernel) (by decide +kernel)

/-- The view in INTEST. -/
def sharedFused : Module := (resultOf (fuseIntest sharedChain) (by decide +kernel)).1

def sharedFusedGraph : CachedGraph :=
  .load (resultOf sharedFused.parse (by decide +kernel)) sharedCells "fail" ∅
    (by decide +kernel) (by decide +kernel)

/-- The maps of the campaign. -/
def sharedMaps : TreeMap String CompiledNetIndex × TreeMap String MapTag :=
  Resolution.buildScanExecutionMap
    { generic := sharedChain
      view := ⟨sharedFused, sitesOf sharedFusedGraph⟩
      pseudoPorts := ∅
      ports := ⟨["wbr_si"], "wbr_se"⟩
      wbrRecords := (extractWbrCells sharedChain).toOption.getD []
      wbrDecoupledBits := [3] } (sitesOf sharedGraph)

/-- The enumerated faults, collapsed. -/
def sharedRows : List FaultRow :=
  resultOf (insertFaults 1 1 sharedGraph.cg (fun _ => false)
    (enumerateAll sharedGraph.ng sharedGraph.cg {} true)) (by decide +kernel)

/-- **A fault that nothing stands for**: `b` stuck at one is collapsed into the fault on `A1`,
which is excluded as a site of the scan chain. -/
theorem sharedChain_unrepresented :
    insertFaults 1 1 sharedGraph.cg (fun _ => false)
      (enumerateAll sharedGraph.ng sharedGraph.cg {} true) = .ok sharedRows ∧
    ∃ rows', [Step.applyScanExecutionMap sharedMaps.1 sharedMaps.2].foldlM (Step.apply 1)
        sharedRows = .ok rows' ∧
      (rows'[5]?).map (fun row => (row.faultSiteKey, row.faultType, row.exclusion)) =
        some ("net:4:stem", .SA1, .none) ∧
      ¬ Represented rows' (·.exclusion = .none) :=
  ⟨eq_ok_resultOf _ (by decide +kernel), _, eq_ok_resultOf _ (by decide +kernel),
    by decide +kernel, not_represented (x := .scanChain) (i := 5) (j := 23) (by decide)
      (by decide +kernel) (by decide +kernel)⟩

end SharedChain

end Db

end FaultFlow
