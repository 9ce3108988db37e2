/-
# Chip coverage

`faultflow/project/aggregate.py`: the faults of every scope of a project are read from its
database and added up.  A fault on a pin of a wrapper cell has one key in the netlist of the
block and in that of the assembly; which of the two owns it depends on the pin alone.

The guards work on sets that are merged over the scopes.  `aggregateProject_sound` says what
they establish: a key is owned once, and what one scope hands off another one takes, unless
two scopes share a name or a scope answers for a key that it hands off itself.

The `netlist` of a scope is the module `top` of its file, `none` if the file has none.
-/

import FaultFlow.Db.Faults
import FaultFlow.Scan.WbrView

namespace FaultFlow

open Std (TreeMap)

namespace Project

open Db Scan

/-- `ScopeRun.kind`. -/
inductive ScopeKind where
  | block | interconnect
deriving DecidableEq, Repr

/-- The roles that own faults. -/
inductive Role where
  | block | assembly
deriving DecidableEq, Repr

/-- `ScopeRun`; `database` is `none` if there is no file. -/
structure ScopeRun where
  kind : ScopeKind
  name : String
  top : String
  campaignType : CampaignType
  database : Option Database
  netlist : Option Module

/-- What a net is to the wrapper: `(boundary_block, boundary_wbc, pin, side)`. -/
structure WbcPin where
  boundaryBlock : Option String
  boundaryWbc : String
  pin : String
  side : WbrSide
deriving DecidableEq, Repr

/-- A canonical key. -/
inductive CanonicalKey where
  | wbc (boundaryBlock boundaryWbc pin : String) (side : WbrSide) (faultType : FaultType)
  | ofScope (scopeName faultSiteKey : String) (faultType : FaultType)
deriving DecidableEq, Repr

/-- The errors of the aggregation: what `AggregateError` says was wrong, and the `ScanError`
of the fusion. -/
inductive AggregateError where
  | noDatabase (scope : String)
  | noCampaign (scope : String) (campaignType : CampaignType)
  | partitionIncomplete (scope : String) (total : ℕ)
  | fusion (error : ScanError)
  | noScopes
  | topsNotDistinct (tops : List String)
  | doubleCounted (overlaps : List (CanonicalKey × String × String))
  | unowned (keys : List CanonicalKey)
  | denominatorZero
deriving DecidableEq, Repr

/-! ## The boundary pins of a netlist -/

/-- The boundary identity of a cell, from its attributes. -/
def wbcPin (inst : String) (cell : Cell) (pin : String) (side : WbrSide) : WbcPin where
  boundaryBlock := nonEmpty cell.attributes["faultflow_block"]?
  boundaryWbc := (cell.attributes["faultflow_wbc"]?).getD inst
  pin := pin
  side := side

/-- `_wbc_pin_index`: a later cell or pin on a net replaces an earlier one. -/
def wbcPinIndex (m : Module) : TreeMap YosysNetID WbcPin :=
  m.cells.toList.foldl (fun index p =>
    match wbrSide p.2.type with
    | none => index
    | some side => p.2.connections.toList.foldl (fun index c =>
        (intBits c.2).foldl (fun index net => index.insert net (wbcPin p.1 p.2 c.1 side)) index)
        index) ∅

/-- `_cell_boundary_pin`. -/
def cellBoundaryPin (inst : String) (cell : Cell) : Option WbcPin :=
  (wbrSide cell.type).map fun side => wbcPin inst cell side.sysPin side

/-- `_wbc_pin_index_extest`. -/
def wbcPinIndexExtest (m : Module) : Except ScanError (TreeMap YosysNetID WbcPin) :=
  if m.cells.isEmpty then .ok ∅
  else do
    let (fused, portMap) ← fuseExtest m
    return portMap.toList.foldl (fun index p =>
      match (m.cells[p.1]?).bind (cellBoundaryPin p.1) with
      | none => index
      | some pin => (intBits (((fused.ports[p.2.port]?).map Port.bits).getD [])).foldl
          (fun index net => index.insert net pin) index) ∅

/-- The `wbc_pins` of a scope. -/
def ScopeRun.wbcPins (scope : ScopeRun) : Except AggregateError (TreeMap YosysNetID WbcPin) :=
  match scope.netlist with
  | none => .ok ∅
  | some m =>
    if scope.campaignType = .scanExtest then (wbcPinIndexExtest m).mapError .fusion
    else .ok (wbcPinIndex m)

/-! ## Keys and owners -/

/-- `_net_id_of`. -/
def netIdOf (faultSiteKey : String) (netId : YosysNetID) : YosysNetID :=
  if 0 ≤ netId then netId
  else match faultSiteKey.splitOn ":" with
    | "net" :: number :: _ => number.toInt?.getD (-1)
    | _ => -1

/-- The pin a fault lies on. -/
def pinOf (pins : TreeMap YosysNetID WbcPin) (row : FaultRow) : Option WbcPin :=
  pins[netIdOf row.faultSiteKey row.netId]?

/-- `_canonical_key`. -/
def canonicalKey (scopeName : String) (pins : TreeMap YosysNetID WbcPin) (row : FaultRow) :
    CanonicalKey :=
  match pinOf pins row with
  | some pin =>
    .wbc (pin.boundaryBlock.getD scopeName) pin.boundaryWbc pin.pin pin.side row.faultType
  | none => .ofScope scopeName row.faultSiteKey row.faultType

/-- `key[0] == "wbc"`. -/
def CanonicalKey.isWbc : CanonicalKey → Bool
  | .wbc .. => true
  | .ofScope .. => false

/-- `_owning_role`. -/
def owningRole (pin : Option WbcPin) (scopeRole : Role) : Role :=
  match pin with
  | none => scopeRole
  | some pin =>
    if pin.pin ∈ ["TO_CORE", "FROM_CORE"] then .block
    else if pin.pin ∈ ["FROM_SYS", "TO_SYS"] then .assembly
    else scopeRole

/-- The role of a scope. -/
def ScopeRun.role (scope : ScopeRun) : Role :=
  if scope.kind = .block then .block else .assembly

/-! ## One scope -/

/-- `_ScopeKeys`; a set is a list without repetitions. -/
structure ScopeKeys where
  owned : List CanonicalKey := []
  handoff : List CanonicalKey := []
  accounted : List CanonicalKey := []
deriving DecidableEq, Repr

/-- The counters and sets of the loop over the rows. -/
structure Tally extends ScopeKeys where
  ownedCount : ℕ := 0
  ownedDetected : ℕ := 0
  foreignCount : ℕ := 0
  handoffCount : ℕ := 0
  excludedByDesign : ℕ := 0
deriving DecidableEq, Repr

/-- One row of the loop. -/
def tallyRow (scope : ScopeRun) (pins : TreeMap YosysNetID WbcPin) (t : Tally) (row : FaultRow) :
    Tally :=
  let role := owningRole (pinOf pins row) scope.role
  let key := canonicalKey scope.name pins row
  if row.inDenominator ∧ role = scope.role then
    { t with
      ownedCount := t.ownedCount + 1
      ownedDetected := if row.status = .detected then t.ownedDetected + 1 else t.ownedDetected
      owned := t.owned.insert key }
  else if row.inDenominator ∧ role ≠ scope.role then
    -- detectable here, but the other role's
    { t with foreignCount := t.foreignCount + 1, handoff := t.handoff.insert key }
  else if row.exclusion = .wbrDecoupled then
    { t with
      handoffCount := t.handoffCount + 1
      handoff := if key.isWbc then t.handoff.insert key else t.handoff }
  else
    { t with
      excludedByDesign := t.excludedByDesign + 1
      accounted := if key.isWbc then t.accounted.insert key else t.accounted }

/-- `ScopeCoverage`. -/
structure ScopeCoverage where
  kind : ScopeKind
  name : String
  top : String
  campaignId : ℕ
  denominator : ℕ
  detected : ℕ
  owned : ℕ
  ownedDetected : ℕ
  foreignCount : ℕ
  handoff : ℕ
  excludedByDesign : ℕ
  totalSites : ℕ
  coveragePercent : Option ℚ
deriving DecidableEq, Repr

/-- `_scope_coverage`. -/
def scopeCoverage (scope : ScopeRun) : Except AggregateError (ScopeCoverage × ScopeKeys) := do
  let some db := scope.database | throw (.noDatabase scope.name)
  let pins ← scope.wbcPins
  let some campaignId := db.latestCampaignId scope.campaignType
    | throw (.noCampaign scope.name scope.campaignType)
  let data := db.summary campaignId
  let rows := db.rowsOf campaignId
  let t := rows.foldl (tallyRow scope pins) {}
  if t.ownedCount + t.foreignCount + t.handoffCount + t.excludedByDesign ≠ rows.length then
    throw (.partitionIncomplete scope.name rows.length)
  return ({ kind := scope.kind, name := scope.name, top := scope.top, campaignId := campaignId
            denominator := data.denominator, detected := data.detected
            owned := t.ownedCount, ownedDetected := t.ownedDetected
            foreignCount := t.foreignCount, handoff := t.handoffCount
            excludedByDesign := t.excludedByDesign, totalSites := rows.length
            coveragePercent := data.testCoveragePercent }, t.toScopeKeys)

/-! ## The project -/

/-- `ChipCoverage`; of the guards the sizes of the sets. -/
structure ChipCoverage where
  project : String
  chipDenominator : ℕ := 0
  chipDetected : ℕ := 0
  chipCoveragePercent : Option ℚ := none
  scopes : List ScopeCoverage := []
  ownedSites : ℕ := 0
  handoffSites : ℕ := 0
  accountedSites : ℕ := 0
deriving DecidableEq, Repr

/-- The variables of the loop over the scopes; `all_owned` is a list of pairs. -/
structure Merge where
  chip : ChipCoverage
  allOwned : List (CanonicalKey × String) := []
  allHandoff : List CanonicalKey := []
  allAccounted : List CanonicalKey := []
  overlaps : List (CanonicalKey × String × String) := []

/-- One owned key of a scope: the second guard. -/
def mergeOwned (name : String) (m : Merge) (key : CanonicalKey) : Merge :=
  match m.allOwned.lookup key with
  | some prev =>
    if prev ≠ name then { m with overlaps := m.overlaps ++ [(key, prev, name)] } else m
  | none => { m with allOwned := (key, name) :: m.allOwned }

/-- One scope of the loop. -/
def mergeScope (m : Merge) (scope : ScopeRun) : Except AggregateError Merge := do
  let (cov, keys) ← scopeCoverage scope
  let m := keys.owned.foldl (mergeOwned scope.name)
    { m with
      chip.scopes := m.chip.scopes ++ [cov]
      chip.chipDenominator := m.chip.chipDenominator + cov.owned
      chip.chipDetected := m.chip.chipDetected + cov.ownedDetected }
  return { m with
    allHandoff := m.allHandoff ∪ keys.handoff
    allAccounted := m.allAccounted ∪ keys.accounted }

/-- The keys that the third guard finds. -/
def Merge.unowned (m : Merge) : List CanonicalKey :=
  m.allHandoff.filter fun key => (m.allOwned.lookup key).isNone && key ∉ m.allAccounted

/-- `aggregate_project`. -/
def aggregateProject (projectName : String) (scopes : List ScopeRun) :
    Except AggregateError ChipCoverage := do
  if scopes = [] then throw .noScopes
  let tops := scopes.map ScopeRun.top
  if ¬ tops.Nodup then throw (.topsNotDistinct tops)
  let m ← scopes.foldlM mergeScope { chip := { project := projectName } }
  if m.overlaps ≠ [] then throw (.doubleCounted m.overlaps)
  if m.unowned ≠ [] then throw (.unowned m.unowned)
  if m.chip.chipDenominator = 0 then throw .denominatorZero
  return { m.chip with
    chipCoveragePercent := percent m.chip.chipDetected m.chip.chipDenominator
    ownedSites := m.allOwned.length
    handoffSites := m.allHandoff.length
    accountedSites := m.allAccounted.length }

/-! ## What a scope claims -/

section Claims

variable (scope : ScopeRun)

/-- The rows that `_scope_coverage` reads. -/
def ScopeRun.rows : List FaultRow :=
  match scope.database with
  | none => []
  | some db => ((db.latestCampaignId scope.campaignType).map db.rowsOf).getD []

/-- The pins by which it reads them. -/
def ScopeRun.pins : TreeMap YosysNetID WbcPin := scope.wbcPins.toOption.getD ∅

/-- The key of a row. -/
def ScopeRun.keyOf (row : FaultRow) : CanonicalKey := canonicalKey scope.name scope.pins row

/-- The row is in the denominator, and the scope's own. -/
def ScopeRun.ownsRow (row : FaultRow) : Bool :=
  row.inDenominator && owningRole (pinOf scope.pins row) scope.role = scope.role

/-- The row is left to the other role. -/
def ScopeRun.handsOffRow (row : FaultRow) : Bool :=
  !scope.ownsRow row && (row.inDenominator || row.exclusion = .wbrDecoupled) &&
    (scope.keyOf row).isWbc

/-- The row is on the boundary, and excluded by design. -/
def ScopeRun.accountsRow (row : FaultRow) : Bool :=
  !row.inDenominator && row.exclusion ≠ .wbrDecoupled && (scope.keyOf row).isWbc

/-- The keys with which a scope counts into the denominator of the chip. -/
def ScopeRun.ownedKeys : List CanonicalKey := (scope.rows.filter scope.ownsRow).map scope.keyOf

/-- The keys of the boundary that a scope hands off. -/
def ScopeRun.handedOffKeys : List CanonicalKey :=
  (scope.rows.filter scope.handsOffRow).map scope.keyOf

/-- The keys of the boundary that a scope excludes by design. -/
def ScopeRun.accountedKeys : List CanonicalKey :=
  (scope.rows.filter scope.accountsRow).map scope.keyOf

/-- The scope owns the key, or excludes it by design. -/
def ScopeRun.Answers (key : CanonicalKey) : Prop :=
  key ∈ scope.ownedKeys ∨ key ∈ scope.accountedKeys

instance (key : CanonicalKey) : Decidable (scope.Answers key) :=
  inferInstanceAs (Decidable (_ ∨ _))

end Claims

section Scopes

variable {scope : ScopeRun}

/-- A row that another role owns lies on a pin of the boundary. -/
theorem isWbc_of_foreign {row : FaultRow}
    (h : owningRole (pinOf scope.pins row) scope.role ≠ scope.role) :
    (scope.keyOf row).isWbc = true := by
  unfold ScopeRun.keyOf canonicalKey
  split
  · rfl
  · rename_i hpin
    exact absurd (by rw [hpin]; rfl) h

/-! One row of the loop, by what the row is to the scope. -/

theorem tallyRow_owned (t : Tally) (row : FaultRow) : (tallyRow scope scope.pins t row).owned =
    if scope.ownsRow row then t.owned.insert (scope.keyOf row) else t.owned := by
  unfold tallyRow ScopeRun.ownsRow ScopeRun.keyOf
  grind

theorem tallyRow_handoff (t : Tally) (row : FaultRow) : (tallyRow scope scope.pins t row).handoff =
    if scope.handsOffRow row then t.handoff.insert (scope.keyOf row) else t.handoff := by
  have hforeign : owningRole (pinOf scope.pins row) scope.role ≠ scope.role →
      (scope.keyOf row).isWbc = true := isWbc_of_foreign
  unfold tallyRow ScopeRun.handsOffRow ScopeRun.ownsRow
  unfold ScopeRun.keyOf at *
  grind

theorem tallyRow_accounted (t : Tally) (row : FaultRow) :
    (tallyRow scope scope.pins t row).accounted =
      if scope.accountsRow row then t.accounted.insert (scope.keyOf row) else t.accounted := by
  unfold tallyRow ScopeRun.accountsRow ScopeRun.keyOf
  grind

theorem tallyRow_ownedCount (t : Tally) (row : FaultRow) :
    (tallyRow scope scope.pins t row).ownedCount =
      if scope.ownsRow row then t.ownedCount + 1 else t.ownedCount := by
  unfold tallyRow ScopeRun.ownsRow
  grind

/-- The keys that the loop collects from the rows it keeps. -/
theorem mem_keys_foldl (keys : Tally → List CanonicalKey) {p : FaultRow → Bool}
    (hrow : ∀ t row, keys (tallyRow scope scope.pins t row) =
      if p row then (keys t).insert (scope.keyOf row) else keys t)
    (rows : List FaultRow) (t : Tally) (key : CanonicalKey) :
    key ∈ keys (rows.foldl (tallyRow scope scope.pins) t) ↔
      key ∈ keys t ∨ key ∈ (rows.filter p).map scope.keyOf := by
  induction rows generalizing t with
  | nil => simp
  | cons row rows ih =>
    rw [List.foldl_cons, ih, hrow, List.filter_cons]
    split
    · rw [List.mem_insert_iff, List.map_cons, List.mem_cons, or_assoc, or_left_comm]
    · rfl

theorem ownedCount_foldl (rows : List FaultRow) (t : Tally) :
    (rows.foldl (tallyRow scope scope.pins) t).ownedCount =
      t.ownedCount + rows.countP scope.ownsRow := by
  induction rows generalizing t with
  | nil => rfl
  | cons row rows ih =>
    rw [List.foldl_cons, ih, tallyRow_ownedCount, List.countP_cons]
    split <;> omega

/-- What `_scope_coverage` returns of a scope. -/
structure Covers (scope : ScopeRun) (cov : ScopeCoverage) (keys : ScopeKeys) : Prop where
  owned : ∀ key, key ∈ keys.owned ↔ key ∈ scope.ownedKeys
  handoff : ∀ key, key ∈ keys.handoff ↔ key ∈ scope.handedOffKeys
  accounted : ∀ key, key ∈ keys.accounted ↔ key ∈ scope.accountedKeys
  count : cov.owned = scope.ownedKeys.length

theorem scopeCoverage_spec {cov : ScopeCoverage} {keys : ScopeKeys}
    (h : scopeCoverage scope = .ok (cov, keys)) : Covers scope cov keys := by
  unfold scopeCoverage at h
  split at h
  swap
  · cases h
  rename_i db hdb
  obtain ⟨pins, hpins, h⟩ := Lib.bind_eq_ok.1 h
  split at h
  swap
  · cases h
  rename_i id hid
  have hrows : db.rowsOf id = scope.rows := by simp [ScopeRun.rows, hdb, hid]
  have hpins' : pins = scope.pins := by simp [ScopeRun.pins, hpins, Except.toOption]
  dsimp only at h
  rw [hrows, hpins'] at h
  split at h
  · cases h
  cases h
  refine ⟨fun key => ?_, fun key => ?_, fun key => ?_, ?_⟩
  · exact (mem_keys_foldl (·.owned) tallyRow_owned _ _ key).trans (or_iff_right List.not_mem_nil)
  · exact (mem_keys_foldl (·.handoff) tallyRow_handoff _ _ key).trans
      (or_iff_right List.not_mem_nil)
  · exact (mem_keys_foldl (·.accounted) tallyRow_accounted _ _ key).trans
      (or_iff_right List.not_mem_nil)
  · rw [ScopeRun.ownedKeys, List.length_map, ← List.countP_eq_length_filter]
    exact (ownedCount_foldl _ _).trans (Nat.zero_add _)

end Scopes

/-! ## The merged sets -/

/-- What the loop over the scopes has merged. -/
structure Merged (scopes : List ScopeRun) (m : Merge) : Prop where
  ownedBy : ∀ key name, m.allOwned.lookup key = some name →
    ∃ scope ∈ scopes, scope.name = name ∧ key ∈ scope.ownedKeys
  owned : m.overlaps = [] → ∀ scope ∈ scopes, ∀ key ∈ scope.ownedKeys,
    m.allOwned.lookup key = some scope.name
  handoff : ∀ key, key ∈ m.allHandoff ↔ ∃ scope ∈ scopes, key ∈ scope.handedOffKeys
  accounted : ∀ key, key ∈ m.allAccounted ↔ ∃ scope ∈ scopes, key ∈ scope.accountedKeys
  denominator : m.chip.chipDenominator = (scopes.map fun scope => scope.ownedKeys.length).sum

/-- What the owned keys of one scope leave. -/
structure OwnedMerged (name : String) (m : Merge) (keys : List CanonicalKey) (m' : Merge) : Prop where
  chip : m'.chip = m.chip
  allHandoff : m'.allHandoff = m.allHandoff
  allAccounted : m'.allAccounted = m.allAccounted
  ownedBy : ∀ key prev, m'.allOwned.lookup key = some prev →
    m.allOwned.lookup key = some prev ∨ (prev = name ∧ key ∈ keys)
  kept : ∀ key prev, m.allOwned.lookup key = some prev → m'.allOwned.lookup key = some prev
  clean : m'.overlaps = [] → m.overlaps = [] ∧ ∀ key ∈ keys, m'.allOwned.lookup key = some name

theorem OwnedMerged.mergeOwned {name : String} {m m' : Merge} {keys : List CanonicalKey}
    (h : OwnedMerged name m keys m') (key : CanonicalKey) :
    OwnedMerged name m (keys ++ [key]) (mergeOwned name m' key) := by
  obtain ⟨hchip, hhandoff, haccounted, hby, hkept, hclean⟩ := h
  unfold Project.mergeOwned
  split
  · rename_i prev hprev
    split
    · refine ⟨hchip, hhandoff, haccounted, fun k p hk => ?_, hkept, fun hov => ?_⟩
      · exact (hby k p hk).imp_right fun h => ⟨h.1, List.mem_append_left _ h.2⟩
      · simp at hov
    · rename_i hname
      obtain rfl := not_not.1 hname
      refine ⟨hchip, hhandoff, haccounted, fun k p hk => ?_, hkept, fun hov => ?_⟩
      · exact (hby k p hk).imp_right fun h => ⟨h.1, List.mem_append_left _ h.2⟩
      · refine ⟨(hclean hov).1, fun k hk => ?_⟩
        rcases List.mem_append.1 hk with hk | hk
        · exact (hclean hov).2 k hk
        · rwa [List.mem_singleton.1 hk]
  · rename_i hnone
    -- a new key is looked up in front of the others
    have hlookup : ∀ k, ((key, name) :: m'.allOwned).lookup k =
        if k = key then some name else m'.allOwned.lookup k := by
      intro k
      rw [List.lookup_cons]
      by_cases hk : k = key
      · simp [hk]
      · rw [beq_false_of_ne hk, if_neg hk]
    refine ⟨hchip, hhandoff, haccounted, fun k p hk => ?_, fun k p hk => ?_, fun hov => ?_⟩
    · rw [hlookup] at hk
      split at hk
      · rename_i heq
        exact .inr ⟨(Option.some.inj hk).symm, by simp [heq]⟩
      · exact (hby k p hk).imp_right fun h => ⟨h.1, List.mem_append_left _ h.2⟩
    · have hk' := hkept k p hk
      rw [hlookup, if_neg (by rintro rfl; simp [hnone] at hk'), hk']
    · refine ⟨(hclean hov).1, fun k hk => ?_⟩
      rw [hlookup]
      split
      · rfl
      · rename_i hne
        exact (hclean hov).2 k ((List.mem_append.1 hk).resolve_right (by simpa using hne))

theorem ownedMerged_foldl (name : String) (m : Merge) (keys : List CanonicalKey) :
    OwnedMerged name m keys (keys.foldl (mergeOwned name) m) :=
  Lib.foldl_visited (OwnedMerged name m)
    ⟨rfl, rfl, rfl, fun _ _ h => .inl h, fun _ _ h => h, fun h => ⟨h, by simp⟩⟩
    fun _ key _ _ _ h => h.mergeOwned key

variable {scopes : List ScopeRun}

theorem Merged.mergeScope {m m' : Merge} {scope : ScopeRun} (h : Merged scopes m)
    (hm : mergeScope m scope = .ok m') : Merged (scopes ++ [scope]) m' := by
  obtain ⟨⟨cov, keys⟩, hcov, hm⟩ := Lib.bind_eq_ok.1 hm
  cases hm
  have hc := scopeCoverage_spec hcov
  obtain ⟨hchip, hhandoff, haccounted, hby, hkept, hclean⟩ := ownedMerged_foldl scope.name
    { m with
      chip.scopes := m.chip.scopes ++ [cov]
      chip.chipDenominator := m.chip.chipDenominator + cov.owned
      chip.chipDetected := m.chip.chipDetected + cov.ownedDetected } keys.owned
  constructor
  · intro key name hkey
    rcases hby key name hkey with hold | ⟨rfl, hnew⟩
    · obtain ⟨s, hs, hname⟩ := h.ownedBy key name hold
      exact ⟨s, List.mem_append_left _ hs, hname⟩
    · exact ⟨scope, by simp, rfl, (hc.owned key).1 hnew⟩
  · intro hov s hs key hkey
    rcases List.mem_append.1 hs with hs | hs
    · exact hkept key s.name (h.owned (hclean hov).1 s hs key hkey)
    · obtain rfl := List.mem_singleton.1 hs
      exact (hclean hov).2 key ((hc.owned key).2 hkey)
  · intro key
    rw [List.mem_union_iff, hhandoff, h.handoff, hc.handoff]
    simp [or_and_right, exists_or]
  · intro key
    rw [List.mem_union_iff, haccounted, h.accounted, hc.accounted]
    simp [or_and_right, exists_or]
  · rw [List.map_append, List.sum_append, hchip, h.denominator, hc.count]
    simp

/-! ## The guards -/

/-- What a returned result establishes of the merged sets. -/
theorem merged_of_aggregateProject {project : String} {chip : ChipCoverage}
    (h : aggregateProject project scopes = .ok chip) :
    (scopes.map ScopeRun.top).Nodup ∧ ∃ m, Merged scopes m ∧ m.overlaps = [] ∧ m.unowned = [] ∧
      chip.chipDenominator = m.chip.chipDenominator := by
  unfold aggregateProject at h
  split at h
  · cases h
  dsimp only at h
  split at h
  · cases h
  rename_i htops
  obtain ⟨m, hm, h⟩ := Lib.bind_eq_ok.1 h
  have hmerged : Merged scopes m := Lib.foldlM_visited Merged hm
    ⟨by simp, by simp, by simp, by simp, rfl⟩ fun _ _ _ _ _ _ hpre hstep => hpre.mergeScope hstep
  split at h
  · cases h
  rename_i hoverlaps
  split at h
  · cases h
  rename_i hunowned
  split at h
  · cases h
  cases h
  exact ⟨not_not.1 htops, m, hmerged, not_not.1 hoverlaps, not_not.1 hunowned, rfl⟩

/-- **No key is owned twice**: a key counts into the denominator of the chip from one scope. -/
def OwnedOnce (scopes : List ScopeRun) : Prop :=
  ∀ a ∈ scopes, ∀ b ∈ scopes, ∀ key ∈ a.ownedKeys, key ∈ b.ownedKeys → a.top = b.top

/-- **No key is lost**: what a scope hands off, another one owns or excludes by design. -/
def HandoffsTaken (scopes : List ScopeRun) : Prop :=
  ∀ a ∈ scopes, ∀ key ∈ a.handedOffKeys, ∃ b ∈ scopes, b.top ≠ a.top ∧ b.Answers key

/-- Scopes that share a name own different keys. -/
def NamesakesDisjoint (scopes : List ScopeRun) : Prop :=
  ∀ a ∈ scopes, ∀ b ∈ scopes, a.top ≠ b.top → a.name = b.name →
    ∀ key ∈ a.ownedKeys, key ∉ b.ownedKeys

/-- A scope that answers for a key it hands off is not the only one. -/
def NoSelfHandoff (scopes : List ScopeRun) : Prop :=
  ∀ a ∈ scopes, ∀ key ∈ a.handedOffKeys, a.Answers key →
    ∃ b ∈ scopes, b.top ≠ a.top ∧ b.Answers key

/-- The second guard: the owners of a key share their name. -/
theorem Merged.name_eq {m : Merge} (h : Merged scopes m) (hov : m.overlaps = []) {a b : ScopeRun}
    (ha : a ∈ scopes) (hb : b ∈ scopes) {key : CanonicalKey} (hka : key ∈ a.ownedKeys)
    (hkb : key ∈ b.ownedKeys) : a.name = b.name :=
  Option.some.inj ((h.owned hov a ha key hka).symm.trans (h.owned hov b hb key hkb))

/-- The third guard: some scope answers for every key that is handed off. -/
theorem Merged.exists_answers {m : Merge} (h : Merged scopes m) (hun : m.unowned = [])
    {a : ScopeRun} (ha : a ∈ scopes) {key : CanonicalKey} (hkey : key ∈ a.handedOffKeys) :
    ∃ b ∈ scopes, b.Answers key := by
  have hmem : key ∈ m.allHandoff := (h.handoff key).2 ⟨a, ha, hkey⟩
  have hnot := List.filter_eq_nil_iff.1 hun key hmem
  by_cases hacc : key ∈ m.allAccounted
  · obtain ⟨b, hb, hkb⟩ := (h.accounted key).1 hacc
    exact ⟨b, hb, .inr hkb⟩
  · obtain ⟨name, hname⟩ : ∃ name, m.allOwned.lookup key = some name := by
      refine Option.ne_none_iff_exists'.1 fun hnone => hnot ?_
      simp [hnone, hacc]
    obtain ⟨b, hb, -, hkb⟩ := h.ownedBy key name hname
    exact ⟨b, hb, .inl hkb⟩

/-- **What the guards establish.**  The denominator of the chip counts the owned rows of every
scope.  If the aggregation returns, no key is owned twice and none is lost exactly if scopes of
one name own different keys, and no scope alone answers for a key that it hands off. -/
theorem aggregateProject_sound {project : String} {scopes : List ScopeRun} {chip : ChipCoverage}
    (h : aggregateProject project scopes = .ok chip) :
    chip.chipDenominator = (scopes.map fun scope => scope.ownedKeys.length).sum ∧
    (OwnedOnce scopes ∧ HandoffsTaken scopes ↔
      NamesakesDisjoint scopes ∧ NoSelfHandoff scopes) := by
  obtain ⟨htops, m, hm, hov, hun, hden⟩ := merged_of_aggregateProject h
  refine ⟨hden.trans hm.denominator, ?_⟩
  constructor
  · rintro ⟨honce, htaken⟩
    exact ⟨fun a ha b hb hne _ key hka hkb => hne (honce a ha b hb key hka hkb),
      fun a ha key hkey _ => htaken a ha key hkey⟩
  · rintro ⟨hnames, hself⟩
    refine ⟨fun a ha b hb key hka hkb => ?_, fun a ha key hkey => ?_⟩
    · by_contra hne
      exact hnames a ha b hb hne (hm.name_eq hov ha hb hka hkb) key hka hkb
    · obtain ⟨b, hb, hans⟩ := hm.exists_answers hun ha hkey
      by_cases hne : b.top = a.top
      · obtain rfl := List.inj_on_of_nodup_map htops hb ha hne
        exact hself b ha key hkey hans
      · exact ⟨b, hb, hne, hans⟩

/-! ### A block with one wrapper cell on its output, and the assembly that holds it -/

/-- A wrapper cell on an output of the core. -/
def outputWrapper (attributes : List (String × String)) (core sys : YosysNetID) : Cell where
  type := "$wbc_out_faultflow"
  attributes := TreeMap.ofList attributes
  connections := TreeMap.ofList [("FROM_CORE", [Bit.net core]), ("TO_SYS", [Bit.net sys])]

/-- A stuck-at-0 row of campaign `1`. -/
def faultAt (id : ℕ) (key : String) (net : YosysNetID) (status : Status) : FaultRow where
  id := id
  campaignId := 1
  faultSiteKey := key
  netId := net
  compiledNetIndex := id
  faultType := .SA0
  status := status

/-- The block: the core's side of its wrapper is detected, the other one decoupled. -/
def blockScope (name top : String) : ScopeRun where
  kind := .block
  name := name
  top := top
  campaignType := .scan
  database := some
    { campaigns := [⟨1, .scan⟩]
      faults := [faultAt 1 "net:2:stem" 2 .detected,
        { faultAt 2 "net:3:stem" 3 .excluded with exclusion := .wbrDecoupled }] }
  netlist := some { cells := TreeMap.ofList [("w", outputWrapper [] 2 3)] }

/-- The assembly, whose copy of the wrapper is tagged with the block. -/
def assemblyScope (faults : List FaultRow) : ScopeRun where
  kind := .interconnect
  name := "soc"
  top := "soc_top"
  campaignType := .comb
  database := some { campaigns := [⟨1, .comb⟩], faults := faults }
  netlist := some
    { cells := TreeMap.ofList
        [("u", outputWrapper [("faultflow_block", "cpu"), ("faultflow_wbc", "w")] 7 8)] }

/-- Both sides of the wrapper are detected from the assembly. -/
def bothSides : List FaultRow :=
  [faultAt 1 "net:7:stem" 7 .detected, faultAt 2 "net:8:stem" 8 .detected]

theorem wrappedBlock_sound :
    OwnedOnce [blockScope "cpu" "cpu_top", assemblyScope bothSides] ∧
      HandoffsTaken [blockScope "cpu" "cpu_top", assemblyScope bothSides] :=
  (aggregateProject_sound (Lib.eq_ok_resultOf
    (aggregateProject "soc" [blockScope "cpu" "cpu_top", assemblyScope bothSides])
    (by decide +kernel))).2.2
    ⟨by unfold NamesakesDisjoint; decide +kernel, by unfold NoSelfHandoff; decide +kernel⟩

/-- A block of the same name, with a top of its own. -/
def namesakes : List ScopeRun :=
  [blockScope "cpu" "cpu_top", blockScope "cpu" "cpu2_top", assemblyScope bothSides]

/-- The block without its wrapper, and an assembly in which a branch of the core's side is
redundant. -/
def unwrapped : List ScopeRun :=
  [{ blockScope "cpu" "cpu_top" with netlist := some {} },
    assemblyScope (bothSides ++ [faultAt 3 "net:7:branch:g:A" 7 .redundant])]

/-- **The guards miss two cases.**  Two blocks of one name count the same key of their wrapper,
and the chip has three faults.  And a key that the assembly hands to a block is owned by no
block, since the assembly itself excludes a branch of the same key. -/
theorem aggregateProject_misses :
    (∃ chip, aggregateProject "soc" namesakes = .ok chip ∧ chip.chipDenominator = 3) ∧
    ¬ OwnedOnce namesakes ∧
    (∃ chip, aggregateProject "soc" unwrapped = .ok chip) ∧ ¬ HandoffsTaken unwrapped := by
  refine ⟨⟨_, Lib.eq_ok_resultOf (aggregateProject "soc" namesakes) (by decide +kernel),
    by decide +kernel⟩, ?_,
    ⟨_, Lib.eq_ok_resultOf (aggregateProject "soc" unwrapped) (by decide +kernel)⟩, ?_⟩
  · unfold OwnedOnce
    decide +kernel
  · unfold HandoffsTaken
    decide +kernel

end Project

end FaultFlow
