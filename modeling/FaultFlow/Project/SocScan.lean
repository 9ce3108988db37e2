/-
# The scan manifest of a composed SoC

`faultflow/project/soc_scan.py`.  `build_soc_scan_manifest` follows the wrapper cells of a
composed netlist from the scan-in port and writes a manifest that says `PASS`.  Its trace
takes the same steps as `check_scan_structure`, but it looks neither at where the chain ends
nor at the scan enables or the internal scan cells: a manifest is accepted exactly when
these are right as well (`buildSocScanManifest_accepted_iff`).
-/

import FaultFlow.Scan.Checks

namespace FaultFlow

open Lib
open Std (TreeMap TreeSet)

namespace Project

open Scan

/-- `_WBR_SCAN_CELL_TYPES`. -/
def wbrScanCellTypes : List String := wbrScanInTypes ++ wbrScanOutTypes

/-- `_one_bit`. -/
def oneBit (cell : Cell) (pin inst : String) : Except String YosysNetID :=
  match maybeOneBit (cell.pin pin) with
  | some net => .ok net
  | none => .error (inst ++ "." ++ pin ++ " must be one concrete net")

/-- `_port_net`. -/
def portNet (m : Module) (name direction : String) : Except String YosysNetID :=
  match m.ports[name]? with
  | none => .error ("missing " ++ direction ++ " port " ++ quoted name)
  | some port =>
    if port.direction ≠ direction then
      .error ("missing " ++ direction ++ " port " ++ quoted name)
    else
      match maybeOneBit (some port.bits) with
      | some net => .ok net
      | none => .error ("port " ++ quoted name ++ " must be one concrete net")

/-- One step of the loop that fills `node_by_cti` and `cto_by_node`. -/
def addTraced (maps : TreeMap YosysNetID String × TreeMap String YosysNetID) (p : String × Cell) :
    Except String (TreeMap YosysNetID String × TreeMap String YosysNetID) := do
  let cti ← oneBit p.2 "CTI" p.1
  let cto ← oneBit p.2 "CTO" p.1
  if maps.1.contains cti then .error ("WBR cells share CTI net " ++ toString cti)
  else .ok (maps.1.insert cti p.1, maps.2.insert p.1 cto)

/-- `trace_wrapper_chain`. -/
def traceWrapperChain (m : Module) (socWbrSiNet : YosysNetID) : Except String (List String) := do
  let maps ← (m.cellsOf wbrScanCellTypes).foldlM addTraced (∅, ∅)
  let w := walkNets maps.1 maps.2 (maps.1.size + 1) [] socWbrSiNet
  match w.cycle with
  | some inst => .error ("cycle in wrapper chain at " ++ inst)
  | none =>
    let unreached := maps.2.keys.filter fun inst => inst ∉ w.derived
    if unreached ≠ [] then
      .error ("WBR cells not reachable from soc scan-in (chain not daisy-chained " ++
        "through the glue?): [" ++ ", ".intercalate (unreached.map quoted) ++ "]")
    else .ok w.derived

/-- The record of a cell on the chain. -/
def socCellRecord (m : Module) (p : String × ℕ) : Except String ScanCellRecord :=
  match m.cells[p.1]? with
  | none => .error (quoted p.1)
  | some cell => do
    let clockNet ← oneBit cell "CLK" p.1
    let dataNet ← oneBit cell (if cell.type ∈ wbrScanInTypes then "FROM_SYS" else "FROM_CORE") p.1
    let scanInNet ← oneBit cell "CTI" p.1
    let scanEnableNet ← oneBit cell "SE" p.1
    let qNet ← oneBit cell "CTO" p.1
    return { instanceName := p.1, originalType := cell.type, chainIndex := 0, chainPosition := p.2
             clockNet := clockNet, dataNet := dataNet, scanInNet := scanInNet
             scanEnableNet := scanEnableNet, qNet := qNet }

/-- `latest_check`. -/
structure LatestCheck where
  status : String
  errors : List String
  genericJsonHash : String
deriving DecidableEq, Repr

/-- The manifest of an SoC; the lengths and counts of the source are lengths of its lists. -/
structure SocScanManifest where
  top : String
  genericJsonHash : String
  techmapVerilog : String
  clockNets : List YosysNetID
  scanInputs : List String
  scanOutputs : List String
  scanEnable : String
  wrapperChain : ScanChainRecord
  latestCheck : LatestCheck
deriving DecidableEq, Repr

/-- The entry of the chain in `wrapper_chains`, as the check reads it. -/
def SocScanManifest.entry (manifest : SocScanManifest) : ChainEntry where
  index := manifest.wrapperChain.index
  scanIn := manifest.wrapperChain.scanIn
  scanOut := manifest.wrapperChain.scanOut
  cells := manifest.wrapperChain.cells.map ScanCellRecord.instanceName

/-- The manifest as the check reads it: no internal chains, one wrapper chain. -/
def SocScanManifest.checked (manifest : SocScanManifest) : CheckedManifest where
  genericJsonHash := manifest.genericJsonHash
  scanEnable := manifest.scanEnable
  chains := []
  wrapperChains := [manifest.entry]

/-- The ports that `build_soc_scan_manifest` is given. -/
structure SocPorts where
  socWbrSi : String
  socWbrSo : String
  socWbrSe : String
  clockPort : String
deriving DecidableEq, Repr

/-- `build_soc_scan_manifest`, of the top module of a netlist file with this hash. -/
def buildSocScanManifest (m : Module) (hash top techmap : String) (ports : SocPorts) :
    Except String SocScanManifest := do
  let siNet ← portNet m ports.socWbrSi "input"
  let soNet ← portNet m ports.socWbrSo "output"
  let _ ← portNet m ports.socWbrSe "input"
  let clkNet ← portNet m ports.clockPort "input"
  let ordered ← traceWrapperChain m siNet
  if ordered = [] then .error "no WBR scan cells found on the SoC wrapper chain"
  else do
    let records ← ordered.zipIdx.mapM (socCellRecord m)
    return {
      top := top, genericJsonHash := hash, techmapVerilog := techmap, clockNets := [clkNet]
      scanInputs := [ports.socWbrSi], scanOutputs := [ports.socWbrSo]
      scanEnable := ports.socWbrSe
      wrapperChain := {
        index := 0, scanIn := ports.socWbrSi, scanOut := ports.socWbrSo, scanInNet := siNet
        scanOutNet := soNet, cells := records }
      latestCheck := { status := "PASS", errors := [], genericJsonHash := hash } }

/-! ## The trace -/

variable {m : Module} {net : YosysNetID} {l : List (String × Cell)}
  {maps : TreeMap YosysNetID String × TreeMap String YosysNetID}

theorem portBit_of_portNet {name direction : String} (h : portNet m name direction = .ok net) :
    portBit m name direction = .ok net := by
  unfold portNet at h
  unfold portBit
  cases hport : m.ports[name]? with
  | none =>
    rw [hport] at h
    cases h
  | some port =>
    rw [hport] at h
    dsimp only at h ⊢
    split at h
    · cases h
    · next hdir =>
      rw [if_neg hdir]
      cases hbit : maybeOneBit (some port.bits) with
      | none =>
        rw [hbit] at h
        cases h
      | some bit =>
        rw [hbit] at h
        exact h

theorem connBit_of_oneBit {cell : Cell} {pin inst : String} (h : oneBit cell pin inst = .ok net) :
    connBit cell pin inst = .ok net := by
  unfold oneBit at h
  split at h
  · next hbit =>
    cases h
    rw [connBit, hbit]
  · cases h

/-- Every wrapper cell is traced. -/
theorem mem_of_addTraced (h : l.foldlM addTraced (∅, ∅) = .ok maps) : ∀ p ∈ l, p.1 ∈ maps.2 := by
  refine foldlM_visited (fun pre (maps : TreeMap YosysNetID String × TreeMap String YosysNetID) =>
    ∀ p ∈ pre, p.1 ∈ maps.2) h (by simp) ?_
  intro pre p post maps maps' _ hpre hstep q hq
  obtain ⟨cti, -, hstep⟩ := bind_eq_ok.1 hstep
  obtain ⟨cto, -, hstep⟩ := bind_eq_ok.1 hstep
  split at hstep
  · cases hstep
  · cases hstep
    rw [TreeMap.mem_insert]
    rcases List.mem_append.1 hq with hq | hq
    · exact .inr (hpre q hq)
    · rw [List.mem_singleton.1 hq]
      exact .inl Std.compare_self

/-- **The maps of the trace** are those of the check, and no input is shared. -/
theorem addTraced_spec (h : l.foldlM addTraced (∅, ∅) = .ok maps) {cs : List ChainCell}
    (hcs : l.mapM (readChainCell "CTI" "CTO") = .ok cs) : (cs.map ChainCell.chainIn).Nodup ∧
      maps.1 = cs.foldl (fun map c => map.insert c.chainIn c.instanceName) ∅ ∧
      maps.2 = cs.foldl (fun map c => map.insert c.instanceName c.chainOut) ∅ := by
  have key := foldlM_visited (fun pre
      (maps : TreeMap YosysNetID String × TreeMap String YosysNetID) =>
      ∀ cs, pre.mapM (readChainCell "CTI" "CTO") = .ok cs →
      ((cs.map ChainCell.chainIn).Nodup ∧ ∀ net, net ∈ maps.1 ↔ ∃ c ∈ cs, c.chainIn = net) ∧
      maps.1 = cs.foldl (fun map c => map.insert c.chainIn c.instanceName) ∅ ∧
      maps.2 = cs.foldl (fun map c => map.insert c.instanceName c.chainOut) ∅) h ?_ ?_
  · exact ⟨(key cs hcs).1.1, (key cs hcs).2⟩
  · rintro cs ⟨⟩
    simp
  · intro pre p post maps maps' _ hpre hstep cs hcs
    rw [List.mapM_append] at hcs
    obtain ⟨cs', hcs', hcs⟩ := bind_eq_ok.1 hcs
    obtain ⟨last, hlast, hcs⟩ := bind_eq_ok.1 hcs
    rw [List.mapM_cons] at hlast
    obtain ⟨c, hc, hlast⟩ := bind_eq_ok.1 hlast
    cases hlast
    cases hcs
    obtain ⟨⟨hnodup, hmem⟩, hin, hout⟩ := hpre cs' hcs'
    obtain ⟨hcti, hcto, -, -, hname⟩ := readChainCell_eq_ok.1 hc
    obtain ⟨cti, hcti', hstep⟩ := bind_eq_ok.1 hstep
    obtain ⟨cto, hcto', hstep⟩ := bind_eq_ok.1 hstep
    obtain rfl : cti = c.chainIn := Except.ok.inj ((connBit_of_oneBit hcti').symm.trans hcti)
    obtain rfl : cto = c.chainOut := Except.ok.inj ((connBit_of_oneBit hcto').symm.trans hcto)
    split at hstep
    · cases hstep
    · next hnew =>
      cases hstep
      rw [← TreeMap.mem_iff_contains, hmem] at hnew
      refine ⟨⟨?_, fun net => ?_⟩, ?_, ?_⟩
      · rw [List.map_append, List.nodup_append_comm]
        exact List.nodup_cons.2 ⟨by simpa using hnew, hnodup⟩
      · rw [TreeMap.mem_insert, hmem]
        simp [or_and_right, exists_or, or_comm]
      · simp [hin, hname]
      · simp [hout, hname]

/-! ## The manifest -/

/-- The nets of a record that the check reads from the cell. -/
def recordCell (r : ScanCellRecord) : ChainCell :=
  ⟨r.instanceName, r.scanInNet, r.qNet, r.scanEnableNet, r.clockNet⟩

theorem socCellRecord_spec {p : String × ℕ} {r : ScanCellRecord} (h : socCellRecord m p = .ok r) :
    ∃ cell, m.cells[p.1]? = some cell ∧
      readChainCell "CTI" "CTO" (p.1, cell) = .ok (recordCell r) ∧ p.1 = r.instanceName := by
  unfold socCellRecord at h
  split at h
  · cases h
  · next cell hcell =>
    obtain ⟨clockNet, hclk, h⟩ := bind_eq_ok.1 h
    obtain ⟨dataNet, -, h⟩ := bind_eq_ok.1 h
    obtain ⟨scanInNet, hin, h⟩ := bind_eq_ok.1 h
    obtain ⟨scanEnableNet, hse, h⟩ := bind_eq_ok.1 h
    obtain ⟨qNet, hq, h⟩ := bind_eq_ok.1 h
    cases h
    exact ⟨cell, hcell, readChainCell_eq_ok.2 ⟨connBit_of_oneBit hin, connBit_of_oneBit hq,
      connBit_of_oneBit hse, connBit_of_oneBit hclk, rfl⟩, rfl⟩

/-- What the check finds of a manifest that was built. -/
structure Traced (m : Module) (hash : String) (manifest : SocScanManifest) (seNet : YosysNetID)
    (cs : List ChainCell) (w : NetWalk) : Prop where
  hash_eq : manifest.genericJsonHash = hash
  se : portBit m manifest.scanEnable "input" = .ok seNet
  scanIn : portBit m manifest.wrapperChain.scanIn "input" = .ok manifest.wrapperChain.scanInNet
  scanOut : portBit m manifest.wrapperChain.scanOut "output" = .ok manifest.wrapperChain.scanOutNet
  cells : (m.cellsOf wbrScanCellTypes).mapM (readChainCell "CTI" "CTO") = .ok cs
  ne_nil : cs ≠ []
  ins : (cs.map ChainCell.chainIn).Nodup
  walk : walkNets (cs.foldl (fun map c => map.insert c.chainIn c.instanceName) ∅)
    (cs.foldl (fun map c => map.insert c.instanceName c.chainOut) ∅)
    ((cs.foldl (fun map c => map.insert c.chainIn c.instanceName)
      (∅ : TreeMap YosysNetID String)).size + 1) [] manifest.wrapperChain.scanInNet = w
  cycle : w.cycle = none
  derived : w.derived = manifest.wrapperChain.cells.map ScanCellRecord.instanceName
  records : ∀ c, c ∈ cs ↔ ∃ r ∈ manifest.wrapperChain.cells, recordCell r = c
  last : manifest.wrapperChain.cells.getLast?.map ScanCellRecord.qNet = some w.cur

/-- **What a built manifest says is what the check finds.** -/
theorem exists_traced {hash top techmap : String} {ports : SocPorts} {manifest : SocScanManifest}
    (h : buildSocScanManifest m hash top techmap ports = .ok manifest) :
    ∃ seNet cs w, portNet m ports.socWbrSe "input" = .ok seNet ∧
      Traced m hash manifest seNet cs w := by
  obtain ⟨siNet, hsi, h⟩ := bind_eq_ok.1 h
  obtain ⟨soNet, hso, h⟩ := bind_eq_ok.1 h
  obtain ⟨seNet, hse, h⟩ := bind_eq_ok.1 h
  obtain ⟨clkNet, -, h⟩ := bind_eq_ok.1 h
  obtain ⟨ordered, htrace, h⟩ := bind_eq_ok.1 h
  split at h
  · cases h
  next hne =>
  obtain ⟨records, hrecords, h⟩ := bind_eq_ok.1 h
  cases h
  obtain ⟨maps, hmaps, htrace⟩ := bind_eq_ok.1 htrace
  dsimp only at htrace
  split at htrace
  · cases htrace
  next hcycle =>
  split at htrace
  · cases htrace
  next hreached =>
  obtain rfl := Except.ok.inj htrace
  rw [not_not, List.filter_eq_nil_iff] at hreached
  generalize hw : walkNets maps.1 maps.2 (maps.1.size + 1) [] siNet = w at *
  -- every wrapper cell is on the chain, so it has a record and all its pins are read
  have hrecord : ∀ p ∈ m.cellsOf wbrScanCellTypes, ∃ r ∈ records,
      readChainCell "CTI" "CTO" p = .ok (recordCell r) := by
    intro p hp
    have hmem : p.1 ∈ w.derived := by
      simpa using hreached p.1 (TreeMap.mem_keys.2 (mem_of_addTraced hmaps p hp))
    obtain ⟨k, hk⟩ := List.getElem?_of_mem hmem
    obtain ⟨r, hr, hget⟩ := getElem?_of_mapM_eq_ok hrecords (k := k) (a := (p.1, k)) (by simp [hk])
    obtain ⟨cell, hcell, hread, -⟩ := socCellRecord_spec hr
    have hcell' := TreeMap.mem_toList_iff_getElem?_eq_some.1 (List.mem_of_mem_filter hp)
    rw [show m.cells[p.1]? = some p.2 from hcell'] at hcell
    obtain rfl := Option.some.inj hcell
    exact ⟨r, List.mem_of_getElem? hget, hread⟩
  have hreads : ∀ p ∈ m.cellsOf wbrScanCellTypes, ∃ c, readChainCell "CTI" "CTO" p = .ok c :=
    fun p hp => (hrecord p hp).elim fun r hr => ⟨recordCell r, hr.2⟩
  obtain ⟨cs, hcs⟩ := exists_mapM_eq_ok hreads
  obtain ⟨hins, hin, hout⟩ := addTraced_spec hmaps hcs
  have hnodes : ∀ (net : YosysNetID) inst, maps.1[net]? = some inst →
      ∃ c ∈ cs, c.instanceName = inst := by
    intro net inst hnet
    obtain ⟨hget, hother⟩ := getElem?_foldl_insert ChainCell.chainIn ChainCell.instanceName
      (m := ∅) hins
    rw [← hin] at hget hother
    by_cases hc : ∃ c ∈ cs, c.chainIn = net
    · obtain ⟨c, hc, rfl⟩ := hc
      exact ⟨c, hc, Option.some.inj ((hget c hc).symm.trans hnet)⟩
    · rw [hother net fun c hc' heq => hc ⟨c, hc', heq⟩] at hnet
      simp at hnet
  have hderived : w.derived = records.map ScanCellRecord.instanceName := by
    have hall : List.Forall₂ (fun p r => Prod.fst p = ScanCellRecord.instanceName r)
        w.derived.zipIdx records :=
      (mapM_eq_ok_iff_forall₂.1 hrecords).imp fun p r hr => (socCellRecord_spec hr).choose_spec.2.2
    rw [← map_eq_map_of_forall₂ hall, List.zipIdx_map_fst]
  have hcells : ∀ c, c ∈ cs ↔ ∃ r ∈ records, recordCell r = c := by
    intro c
    rw [mem_of_mapM_eq_ok hcs]
    constructor
    · rintro ⟨p, hp, hc⟩
      obtain ⟨r, hr, hread⟩ := hrecord p hp
      exact ⟨r, hr, Except.ok.inj (hread.symm.trans hc)⟩
    · rintro ⟨r, hr, rfl⟩
      obtain ⟨⟨inst, k⟩, hk, hrec⟩ := (mem_of_mapM_eq_ok hrecords).1 hr
      obtain ⟨cell, hcell, hread, -⟩ := socCellRecord_spec hrec
      -- the walk is on wrapper cells only
      obtain ⟨c, hc, hname⟩ := forall_mem_walkNets maps.1 maps.2
        (P := fun inst => ∃ c ∈ cs, c.instanceName = inst) (maps.1.size + 1) siNet
        (fun _ h => absurd h List.not_mem_nil) hnodes inst
        (by rw [hw]; exact List.fst_mem_of_mem_zipIdx hk)
      obtain ⟨p, hp, hpc⟩ := (mem_of_mapM_eq_ok hcs).1 hc
      have hpname : p.1 = inst := (readChainCell_eq_ok.1 hpc).2.2.2.2.trans hname
      have hcell' := TreeMap.mem_toList_iff_getElem?_eq_some.1 (List.mem_of_mem_filter hp)
      rw [hpname] at hcell'
      obtain rfl := Option.some.inj (hcell'.symm.trans hcell)
      exact ⟨p, hp, by rw [← hread, ← hpname]⟩
  have hnames : (cs.map ChainCell.instanceName).Nodup := by
    have hall : List.Forall₂ (fun p c => Prod.fst p = ChainCell.instanceName c)
        (m.cellsOf wbrScanCellTypes) cs :=
      (mapM_eq_ok_iff_forall₂.1 hcs).imp fun p c hc => (readChainCell_eq_ok.1 hc).2.2.2.2
    rw [← map_eq_map_of_forall₂ hall]
    refine List.pairwise_map.2 ((TreeMap.distinct_keys_toList.filter _).imp fun h heq => ?_)
    exact h (heq ▸ Std.compare_self)
  have hlast : records.getLast?.map ScanCellRecord.qNet = some w.cur := by
    obtain ⟨-, hend⟩ := walkNets_spec maps.1 maps.2 (maps.1.size + 1) siNet List.nodup_nil
    rw [hw] at hend
    obtain ⟨inst, hinst, hcur⟩ := hend.resolve_left fun h => hne h.1
    rw [hderived, List.getLast?_map] at hinst
    obtain ⟨r, hr, rfl⟩ := Option.map_eq_some_iff.1 hinst
    have hmem : recordCell r ∈ cs := (hcells _).2 ⟨r, List.mem_of_getLast? hr, rfl⟩
    have hget := (getElem?_foldl_insert ChainCell.instanceName ChainCell.chainOut (m := ∅) hnames).1
      _ hmem
    rw [← hout] at hget
    rw [hr, Option.map_some, hcur _ hget]
    rfl
  refine ⟨seNet, cs, w, hse, rfl, portBit_of_portNet hse, portBit_of_portNet hsi,
    portBit_of_portNet hso, hcs, ?_, hins, ?_, hcycle, hderived, hcells, hlast⟩
  · rintro rfl
    obtain ⟨r, hr, -⟩ := Option.map_eq_some_iff.1 hlast
    exact absurd ((hcells _).2 ⟨r, List.mem_of_getLast? hr, rfl⟩) List.not_mem_nil
  · rw [← hin, ← hout]
    exact hw

namespace Traced

variable {hash : String} {manifest : SocScanManifest} {seNet : YosysNetID} {cs : List ChainCell}
  {w : NetWalk}

/-- The chain as the check reads it. -/
theorem validate (h : Traced m hash manifest seNet cs w) {wbr : ChainCells} (hwbr : wbr.Holds cs)
    (errors : List String) :
    (∃ found, (manifest.checked.wrapperChains.foldl (validateChain m wbr) (∅, errors)).2 =
        errors ++ found ∧ (found = [] ↔ w.cur = manifest.wrapperChain.scanOutNet)) ∧
      ∀ name, name ∈ (manifest.checked.wrapperChains.foldl (validateChain m wbr) (∅, errors)).1 ↔
        name ∈ wbr.names := by
  have hw : walkNets wbr.nodeByIn wbr.outByNode (wbr.nodeByIn.size + 1) []
      manifest.wrapperChain.scanInNet = w := by
    rw [hwbr.nodeByIn, hwbr.outByNode]
    exact h.walk
  have hscanIn : portBit m manifest.entry.scanIn "input" = _ := h.scanIn
  obtain ⟨hfound, hseen⟩ := validateChain_spec hscanIn h.scanOut hw h.cycle h.derived errors
  refine ⟨hfound, fun name => (hseen name).trans ?_⟩
  rw [hwbr.names, SocScanManifest.entry, List.mem_map]
  constructor
  · rintro ⟨r, hr, rfl⟩
    exact ⟨recordCell r, (h.records _).2 ⟨r, hr, rfl⟩, rfl⟩
  · rintro ⟨c, hc, rfl⟩
    obtain ⟨r, hr, rfl⟩ := (h.records c).1 hc
    exact ⟨r, hr, rfl⟩

/-- **The findings about a built manifest**, past the internal scan cells. -/
theorem checkBody_eq (h : Traced m hash manifest seNet cs w) (fileExists : String → Bool)
    {r : ChainCells × List String}
    (hff : collectChainCells m scanCellTypes "SDI" "Q" (some seNet) [] = .ok r) :
    ∃ wbr found, ChainCells.Holds wbr cs ∧
      (found = [] ↔ w.cur = manifest.wrapperChain.scanOutNet) ∧
      checkBody manifest.checked hash m false fileExists =
        .ok (r.2 ++ enableErrors r.1 wbr seNet ++ found ++
          absentErrors "scan FFs missing from manifest: " r.1.names ∅) := by
  have hwbr : collectChainCells m (wbrScanInTypes ++ wbrScanOutTypes) "CTI" "CTO" none r.2 =
      .ok (cs.foldl (ChainCells.add "CTI" none) ({}, r.2)) :=
    collectChainCells_eq_ok.2 ⟨cs, h.cells, rfl⟩
  have hholds := ChainCells.holds_foldl "CTI" none r.2 cs
  have herrors := errors_foldl_add "CTI" r.2 h.ins
  generalize cs.foldl (ChainCells.add "CTI" none) ({}, r.2) = st at *
  obtain ⟨wbr, errors⟩ := st
  obtain rfl : errors = r.2 := herrors
  obtain ⟨c, hc⟩ := List.exists_mem_of_ne_nil cs h.ne_nil
  have hclocks : ¬ wbr.clockNets.isEmpty := by
    rw [TreeSet.isEmpty_iff_forall_not_mem, not_forall]
    exact ⟨c.clk, not_not.2 ((hholds.clockNets _).2 ⟨c, hc, rfl⟩)⟩
  obtain ⟨⟨found, hfound, hend⟩, hseen⟩ := h.validate hholds (r.2 ++ enableErrors r.1 wbr seNet)
  refine ⟨wbr, found, hholds, hend, ?_⟩
  have hse : portBit m manifest.checked.scanEnable "input" = .ok seNet := h.se
  have habsent : ∀ label, absentErrors label wbr.names (manifest.checked.wrapperChains.foldl
      (validateChain m wbr) (∅, r.2 ++ enableErrors r.1 wbr seNet)).1 = [] := fun label =>
    absentErrors_eq_nil.2 fun name hname => (hseen name).2 hname
  have hextra : ∀ label, absentErrors label (manifest.checked.wrapperChains.foldl
      (validateChain m wbr) (∅, r.2 ++ enableErrors r.1 wbr seNet)).1 wbr.names = [] := fun label =>
    absentErrors_eq_nil.2 fun name hname => (hseen name).1 hname
  have hnone : ∀ label, absentErrors label ∅ r.1.names = [] := fun label =>
    absentErrors_eq_nil.2 fun name hname => absurd hname TreeSet.not_mem_emptyc
  have hhash : ¬ hash ≠ manifest.checked.genericJsonHash := not_not.2 h.hash_eq.symm
  simp only [checkBody, if_neg hhash, hse, Except.mapError]
  simp only [bind, Except.bind, hff, hwbr, hclocks, and_false, if_false, List.append_nil,
    show manifest.checked.chains = [] from rfl, List.foldl_nil, hfound, hnone, habsent, hextra,
    Bool.false_eq_true, false_and]
  rfl

theorem accepted_iff (h : Traced m hash manifest seNet cs w) :
    checkScanStructure manifest.checked hash m = [] ↔
      m.cellsOf scanCellTypes = [] ∧ w.cur = manifest.wrapperChain.scanOutNet ∧
        ∀ c ∈ cs, c.se = seNet := by
  have hhash : ¬ hash ≠ manifest.checked.genericJsonHash := not_not.2 h.hash_eq.symm
  have hse : portBit m manifest.checked.scanEnable "input" = .ok seNet := h.se
  rw [checkScanStructure]
  cases hff : collectChainCells m scanCellTypes "SDI" "Q" (some seNet) [] with
  | error e =>
    have hbody : checkBody manifest.checked hash m false (fun _ => false) = .error e := by
      simp only [checkBody, if_neg hhash, hse, Except.mapError]
      simp only [bind, Except.bind, hff]
    rw [hbody]
    refine ⟨fun hnil => absurd hnil (ne_nil_of_collectChainCells hff), fun hcond => ?_⟩
    rw [collectChainCells, hcond.1] at hff
    cases hff
  | ok r =>
    obtain ⟨wbr, found, hwbr, hfound, hbody⟩ := h.checkBody_eq (fun _ => false) hff
    obtain ⟨ffs, hffs, rfl⟩ := collectChainCells_eq_ok.1 hff
    have hholds := ChainCells.holds_foldl "SDI" (some seNet) [] ffs
    rw [hbody]
    simp only [List.append_eq_nil_iff, hfound]
    have hnone : ffs = [] ↔ m.cellsOf scanCellTypes = [] := by
      rw [← List.length_eq_zero_iff, ← List.length_eq_zero_iff,
        (mapM_eq_ok_iff_forall₂.1 hffs).length_eq]
    rw [← hnone]
    constructor
    · rintro ⟨⟨⟨-, henable⟩, hcur⟩, habsent⟩
      have hnil : ffs = [] := List.eq_nil_iff_forall_not_mem.2 fun c hc =>
        absurd (absentErrors_eq_nil.1 habsent _ ((hholds.names _).2 ⟨c, hc, rfl⟩))
          TreeSet.not_mem_emptyc
      subst hnil
      exact ⟨rfl, hcur, (enableErrors_eq_nil rfl hwbr h.ne_nil).1 henable⟩
    · rintro ⟨rfl, hcur, hall⟩
      exact ⟨⟨⟨rfl, (enableErrors_eq_nil rfl hwbr h.ne_nil).2 hall⟩, hcur⟩, rfl⟩

end Traced

/-- **A built manifest passes the check** if and only if the netlist has no internal scan cell, the
chain ends at the scan-out net, and every cell on it uses the scan enable. -/
theorem buildSocScanManifest_accepted_iff (m : Module) (hash top techmap : String)
    (ports : SocPorts) (manifest : SocScanManifest)
    (h : buildSocScanManifest m hash top techmap ports = .ok manifest) :
    checkScanStructure manifest.checked hash m = [] ↔
      (∀ p ∈ m.cells.toList, p.2.type ∉ scanCellTypes) ∧
      manifest.wrapperChain.cells.getLast?.map ScanCellRecord.qNet =
        some manifest.wrapperChain.scanOutNet ∧
      ∀ r ∈ manifest.wrapperChain.cells,
        portNet m ports.socWbrSe "input" = .ok r.scanEnableNet := by
  obtain ⟨seNet, cs, w, hse, htraced⟩ := exists_traced h
  rw [htraced.accepted_iff, htraced.last, hse, Option.some_inj]
  refine and_congr ?_ (and_congr_right fun _ => ?_)
  · simp only [Module.cellsOf, List.filter_eq_nil_iff, decide_eq_true_eq]
  · constructor
    · intro hall r hr
      rw [← hall _ ((htraced.records _).2 ⟨r, hr, rfl⟩)]
      rfl
    · intro hall c hc
      obtain ⟨r, hr, rfl⟩ := (htraced.records c).1 hc
      exact (Except.ok.inj (hall r hr)).symm

/-- An SoC with one wrapper cell, whose chain output is net 5, and the scan-out port on net
`scanOut`. -/
def oneCellSoc (scanOut : YosysNetID) : Module where
  ports := TreeMap.ofList [("clk", (⟨"input", [.net 4]⟩ : Port)), ("se", ⟨"input", [.net 3]⟩),
    ("si", ⟨"input", [.net 2]⟩), ("so", ⟨"output", [.net scanOut]⟩)]
  cells := TreeMap.ofList [("u", Cell.ofPins "$wbc_in_scan_faultflow" [("CTI", 2), ("CTO", 5),
    ("SE", 3), ("CLK", 4), ("FROM_SYS", 6), ("TO_CORE", 7)])]

def oneCellPorts : SocPorts := ⟨"si", "so", "se", "clk"⟩

def oneCellManifest (scanOut : YosysNetID) : SocScanManifest where
  top := "soc"
  genericJsonHash := "h"
  techmapVerilog := ""
  clockNets := [4]
  scanInputs := ["si"]
  scanOutputs := ["so"]
  scanEnable := "se"
  wrapperChain := { index := 0, scanIn := "si", scanOut := "so", scanInNet := 2
                    scanOutNet := scanOut
                    cells := [⟨"u", "$wbc_in_scan_faultflow", 0, 0, 4, 6, 2, 3, 5⟩] }
  latestCheck := ⟨"PASS", [], "h"⟩

theorem oneCellSoc_accepted_iff :
    buildSocScanManifest (oneCellSoc 5) "h" "soc" "" oneCellPorts = .ok (oneCellManifest 5) ∧
      (checkScanStructure (oneCellManifest 5).checked "h" (oneCellSoc 5) = [] ↔
        (∀ p ∈ (oneCellSoc 5).cells.toList, p.2.type ∉ scanCellTypes) ∧
        (oneCellManifest 5).wrapperChain.cells.getLast?.map ScanCellRecord.qNet =
          some (oneCellManifest 5).wrapperChain.scanOutNet ∧
        ∀ r ∈ (oneCellManifest 5).wrapperChain.cells,
          portNet (oneCellSoc 5) oneCellPorts.socWbrSe "input" = .ok r.scanEnableNet) :=
  ⟨by decide +kernel, buildSocScanManifest_accepted_iff (oneCellSoc 5) "h" "soc" "" oneCellPorts
    (oneCellManifest 5) (by decide +kernel)⟩

/-- **A chain that ends elsewhere** is built with the status `PASS` and refused by the check. -/
theorem oneCellSoc_refused :
    buildSocScanManifest (oneCellSoc 8) "h" "soc" "" oneCellPorts = .ok (oneCellManifest 8) ∧
      (oneCellManifest 8).latestCheck.status = "PASS" ∧
      checkScanStructure (oneCellManifest 8).checked "h" (oneCellSoc 8) =
        ["chain 0 terminates at net 5, not scan_out 8"] := by
  refine ⟨by decide +kernel, rfl, by decide +kernel⟩

end Project

end FaultFlow
