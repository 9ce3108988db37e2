/-
# The campaign database

The table `faults` of `faultflow/db/sqlite.py` and the aggregates of `summary`.  A column
of names is an enumeration here.  Of a row the columns are kept that some modelled
statement reads or writes: the names of nets, the copies `type`, `excluded` and
`collapsed_to` and the vector of a detection are not.

Coverage is computed in floating point by the source; here it is a rational number.
-/

import FaultFlow.Common.Types
import Mathlib.Data.Rat.Init

namespace FaultFlow

namespace Db

/-- The column `campaign_type`. -/
inductive CampaignType where
  | comb | scan | scanExtest
deriving DecidableEq, Repr

/-- The column `exclusion`. -/
inductive Exclusion where
  | none | blackbox | clock | reset | scan | scanInternal | scanChain | crossDomain | wbrDecoupled
deriving DecidableEq, Repr

/-- The column `status`. -/
inductive Status where
  | undetected | detected | redundant | excluded
deriving DecidableEq, Repr

/-- A row of `faults`. -/
structure FaultRow where
  id : ℕ
  campaignId : ℕ
  faultSiteKey : String
  netId : YosysNetID
  compiledNetIndex : CompiledNetIndex
  faultType : FaultType
  status : Status := .undetected
  exclusion : Exclusion := .none
  collapsedInto : Option ℕ := .none
  atpgCompiledNetIndex : Option CompiledNetIndex := .none
  redundancyModelId : Option String := .none
  protocolUnresolved : Bool := false
deriving DecidableEq, Repr

/-- A row of `campaigns`. -/
structure Campaign where
  id : ℕ
  campaignType : CampaignType
deriving DecidableEq, Repr

/-- A database. -/
structure Database where
  campaigns : List Campaign := []
  faults : List FaultRow := []
deriving DecidableEq, Repr

/-- `latest_campaign_id`. -/
def Database.latestCampaignId (db : Database) (campaignType : CampaignType) : Option ℕ :=
  ((db.campaigns.filter (·.campaignType = campaignType)).map Campaign.id).max?

/-- The rows of a campaign. -/
def Database.rowsOf (db : Database) (campaignId : ℕ) : List FaultRow :=
  db.faults.filter (·.campaignId = campaignId)

namespace FaultRow

/-- `exclusion = 'none' AND collapsed_into IS NULL`. -/
def eligible (row : FaultRow) : Bool := row.exclusion = .none && row.collapsedInto.isNone

/-- `eligible`, with another status than `redundant`. -/
def inDenominator (row : FaultRow) : Bool := row.eligible && row.status ≠ .redundant

/-- `exclusion IN ('scan', 'scan_internal', 'scan_chain')`. -/
def excludedScan (row : FaultRow) : Bool :=
  row.exclusion = .scan || row.exclusion = .scanInternal || row.exclusion = .scanChain

end FaultRow

/-- What `summary` returns of a campaign. -/
structure Summary where
  totalRawFaults : ℕ
  structuralEligible : ℕ
  denominator : ℕ
  detected : ℕ
  undetected : ℕ
  redundant : ℕ
  collapsed : ℕ
  excludedBlackbox : ℕ
  excludedClock : ℕ
  excludedReset : ℕ
  excludedScan : ℕ
  excludedScanInternal : ℕ
  excludedScanChain : ℕ
  excludedCrossDomain : ℕ
  excludedWbrDecoupled : ℕ
  protocolUnresolved : ℕ
deriving DecidableEq, Repr

/-- `100.0 * part / whole if whole else None`. -/
def percent (part whole : ℕ) : Option ℚ :=
  if whole = 0 then .none else some (100 * part / whole)

/-- `test_coverage_percent`, which is also `coverage_percent`. -/
def Summary.testCoveragePercent (s : Summary) : Option ℚ := percent s.detected s.denominator

/-- `fault_coverage_percent`. -/
def Summary.faultCoveragePercent (s : Summary) : Option ℚ :=
  percent s.detected s.structuralEligible

/-- The aggregates over the rows of a campaign. -/
def summaryOf (rows : List FaultRow) : Summary where
  totalRawFaults := rows.length
  structuralEligible := rows.countP FaultRow.eligible
  denominator := rows.countP FaultRow.inDenominator
  detected := rows.countP fun row => row.eligible && row.status = .detected
  undetected := rows.countP fun row => row.eligible && row.status = .undetected
  redundant := rows.countP fun row => row.eligible && row.status = .redundant
  collapsed := rows.countP fun row => row.collapsedInto.isSome
  excludedBlackbox := rows.countP fun row => row.exclusion = .blackbox
  excludedClock := rows.countP fun row => row.exclusion = .clock
  excludedReset := rows.countP fun row => row.exclusion = .reset
  excludedScan := rows.countP FaultRow.excludedScan
  excludedScanInternal := rows.countP fun row => row.exclusion = .scanInternal
  excludedScanChain := rows.countP fun row => row.exclusion = .scanChain
  excludedCrossDomain := rows.countP fun row => row.exclusion = .crossDomain
  excludedWbrDecoupled := rows.countP fun row => row.exclusion = .wbrDecoupled
  protocolUnresolved := rows.countP fun row =>
    row.protocolUnresolved && row.eligible && row.status ≠ .detected

/-- `summary`. -/
def Database.summary (db : Database) (campaignId : ℕ) : Summary := summaryOf (db.rowsOf campaignId)

end Db

end FaultFlow
