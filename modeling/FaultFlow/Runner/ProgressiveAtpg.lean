/-
# The progressive test generation loop

`run_progressive_native_atpg` of `faultflow/runner/progressive_atpg.py`: rounds
that grade random vectors once and then solve one fault after the other, in
waves when there are workers, grading every accepted candidate.  The extension
it drives is a parameter (`Core`): what a solver call answers may depend on when
it is made, since the calls run under limits, and a worker may fail.

The rows of `faults` hold the fault and the columns the loop reads.  Left out are
what is only written (`detected_by_vector`, the `vectors` and `runs` tables, the
reasons of `record_sat_outcomes`), the log, the clocks and the callback.
Percentages are rational.
-/

import FaultFlow.Atpg.FaultSolver
import Mathlib.Data.Rat.Defs

namespace FaultFlow.Runner

open Std (TreeMap TreeSet)

/-! ## The fault table -/

/-- The column `status`. -/
inductive FaultStatus where
  | undetected | detected | redundant
deriving DecidableEq, Repr

/-- A row of `faults`. -/
structure FaultRow where
  fault : CompactFault
  netId : YosysNetID
  status : FaultStatus := .undetected
  redundancyModelId : Option String := none
  protocolUnresolved : Bool := false
deriving DecidableEq

/-- The rows of a campaign, by fault id. -/
abbrev FaultTable := TreeMap ℕ FaultRow

/-- Neither excluded nor collapsed. -/
def FaultRow.inScope (row : FaultRow) : Bool :=
  row.fault.exclusion = .NONE && row.fault.collapsedInto.isNone

/-- What `load_active_fault_records` keeps. -/
def FaultRow.open (row : FaultRow) : Bool := row.inScope && row.status = .undetected

/-- What `_active_fault_rows` selects. -/
def FaultRow.active (row : FaultRow) : Bool := row.open && !row.protocolUnresolved

/-- The update of `mark_faults_detected`: only an undetected fault. -/
def FaultRow.detect (row : FaultRow) : FaultRow :=
  if row.status = .undetected then { row with status := .detected, protocolUnresolved := false }
  else row

/-- The update of `mark_fault_redundant`: only an undetected fault. -/
def FaultRow.certify (modelId : String) (row : FaultRow) : FaultRow :=
  if row.status = .undetected then
    { row with status := .redundant, redundancyModelId := some modelId }
  else row

namespace FaultTable

/-- The ids of `_active_fault_rows`. -/
def activeIds (db : FaultTable) : List ℕ := (db.toList.filter fun p => p.2.active).map Prod.fst

/-- How many rows in scope have a status. -/
def countStatus (db : FaultTable) (status : FaultStatus) : ℕ :=
  db.toList.countP fun p => p.2.inScope && p.2.status = status

/-- `_coverage_denominator`. -/
def coverageDenominator (db : FaultTable) : ℕ := db.toList.countP fun p => p.2.inScope

/-- The denominator of `summary`: redundant faults do not count. -/
def denominator (db : FaultTable) : ℕ :=
  db.toList.countP fun p => p.2.inScope && p.2.status ≠ .redundant

/-- The `coverage_percent` of `summary`. -/
def coveragePercent (db : FaultTable) : Option ℚ :=
  if db.denominator = 0 then none else some (100 * db.countStatus .detected / db.denominator)

/-- One row of `mark_faults_detected`. -/
def markDetected (db : FaultTable) (id : ℕ) : FaultTable := db.modify id FaultRow.detect

/-- `mark_fault_redundant`. -/
def markRedundant (modelId : String) (db : FaultTable) (id : ℕ) : FaultTable :=
  db.modify id (FaultRow.certify modelId)

/-- `invalidate_stale_redundant`. -/
def invalidateStaleRedundant (db : FaultTable) (modelId : String) : FaultTable :=
  db.map fun _ row =>
    if row.status = .redundant ∧ row.redundancyModelId ≠ some modelId then
      { row with status := .undetected, redundancyModelId := none }
    else row

/-- `_precertify_redundant`: the faults of the stems, in one transaction. -/
def precertifyRedundant (db : FaultTable) (stems : List YosysNetID) (modelId : String) :
    FaultTable :=
  db.map fun _ row =>
    if row.netId ∈ stems ∧ row.open = true then
      { row with status := .redundant, redundancyModelId := some modelId }
    else row

end FaultTable

/-! ## The extension -/

/-- A vector: the values of inputs, by name. -/
abbrev PiMap := TreeMap String Bool

/-- What the process pool may raise instead of a result. -/
inductive PoolFailure where
  | brokenProcessPool | otherException
deriving DecidableEq

/-- **The compiled extension**, as the loop sees it.  `call` numbers the calls of
the solver. -/
structure Core where
  /-- `solve_fault_atpg` under a limit of `seconds`, for an active fault. -/
  solve : (call seconds : ℕ) → CompactFault → List (List Char) →
    Except FlowError (Atpg.SolveOutcome PiMap)
  /-- `verify_fault_candidate`. -/
  verify : CompactFault → PiMap → Bool
  /-- The lane of a fault in `simulate_incremental`. -/
  grade : CompactFault → PiMap → Bool
  /-- `compute_fault_cone_sizes`. -/
  coneSize : CompactFault → ℕ
  /-- The low bits of the random generator. -/
  randomBit : ℕ → Bool
  /-- What the pool raises for a worker's call, if anything. -/
  poolFailure : ℕ → Option PoolFailure := fun _ => none
  /-- A call that no worker had begun when an earlier result of its wave raised. -/
  pending : ℕ → Bool := fun _ => false
  /-- A pool of forked workers can be had. -/
  canFork : Bool := true

/-- `PreflightData`. -/
structure PreflightData where
  fanoutYosysIds : List YosysNetID
  redundantStemIds : List YosysNetID

/-- The configuration the loop reads; `timeout_tiers` is the parsed schedule. -/
structure AtpgConfig where
  randomVectors : ℕ := 64
  randomStopCoverage : ℚ := 85
  randomOnly : Bool := false
  maxRounds : ℕ := 20
  targetCoverage : ℚ := 100
  timeoutTiers : List ℕ := [2, 10, 60]
  faultDropSat : Bool := true
  orderByConeSize : Bool := true
  workers : ℕ := 1
  easyFaultReserve : ℕ := 0

/-- The errors that end a run. -/
inductive RunnerError where
  | maxRoundsBelowOne
  | targetOutOfRange
  | faultNotFound (id : ℕ)
  | faultNotActive
  | core (e : FlowError)
  | workerDied
  | denominatorZero
deriving DecidableEq

/-- `pattern_key`: the inputs in order, then the other names of the vector. -/
def patternKey (vector : PiMap) (inputOrder : List String) : String :=
  let extra := vector.keys.filter fun name => !inputOrder.contains name
  String.ofList ((inputOrder ++ extra).map fun name => if vector.getD name false then '1' else '0')

/-- `generate_random_vectors`: vector `i` takes the next bits of the generator. -/
def generateRandomVectors (bit : ℕ → Bool) (inputOrder : List String) (count : ℕ) : List PiMap :=
  (List.range count).map fun i =>
    inputOrder.zipIdx.foldl (fun vector p =>
      vector.insert p.1 (bit (i * inputOrder.length + p.2))) ∅

/-- `interleave_easy_hard`, past its degenerate cases. -/
def interleaveChunks {α : Type} (easy hard : ℕ) : ℕ → List α → List α
  | 0, _ => []
  | _, [] => []
  | fuel + 1, items =>
    let rest := (items.drop easy).reverse
    items.take easy ++ rest.take hard ++ interleaveChunks easy hard fuel (rest.drop hard).reverse

/-- `interleave_easy_hard`. -/
def interleaveEasyHard {α : Type} (items : List α) (workers easyReserve : ℕ) : List α :=
  if items.isEmpty ∨ workers < 4 ∨ easyReserve = 0 ∨ workers ≤ easyReserve then items
  else interleaveChunks easyReserve (workers - easyReserve) items.length items

/-! ## The state of a run -/

/-- `AtpgStats`, without the terminal reason. -/
structure AtpgStats where
  rounds : ℕ := 0
  sat : ℕ := 0
  unsat : ℕ := 0
  timeout : ℕ := 0
  unknown : ℕ := 0
  rejectedCandidates : ℕ := 0
  generatedVectors : ℕ := 0
  acceptedVectors : ℕ := 0
  protocolNoProgressRounds : ℕ := 0
deriving DecidableEq

/-- The terminal reasons. -/
inductive Terminal where
  | maxRounds | complete | randomOnly | thresholdMet | stalled
deriving DecidableEq

/-- An entry of `round_tracker.sat_outcomes`. -/
inductive RoundOutcome where
  | sat | protocolNoProgress | timeout | unknown
deriving DecidableEq

/-- What a run carries from round to round. -/
structure RunState where
  db : FaultTable
  vectors : List PiMap := []
  seenPatterns : TreeSet String := ∅
  rejectedPatterns : TreeMap ℕ (TreeSet String) := ∅
  priorTimeoutCount : TreeMap ℕ ℕ := ∅
  calls : ℕ := 0
  stats : AtpgStats := {}

/-- What a round carries from fault to fault. -/
structure RoundState extends RunState where
  remaining : TreeSet ℕ
  parallelResults : TreeMap ℕ (Atpg.SolveOutcome PiMap) := ∅
  /-- `active_ids` from `_wave_pos` on. -/
  undispatched : List ℕ
  outcomes : List RoundOutcome := []

/-- A run that ended with an error, and what it had written. -/
structure Stopped where
  reason : RunnerError
  db : FaultTable

/-- An error of a call in a state. -/
def stopAt {α : Type} (db : FaultTable) : Except RunnerError α → Except Stopped α
  | .ok a => .ok a
  | .error reason => .error { reason, db }

namespace RunState

/-- The patterns a fault is not to be given again. -/
def blocked (s : RunState) (id : ℕ) : List String := (s.rejectedPatterns.getD id ∅).toList

/-- Add a pattern to those. -/
def reject (s : RunState) (id : ℕ) (key : String) : RunState :=
  { s with rejectedPatterns := s.rejectedPatterns.insert id ((s.rejectedPatterns.getD id ∅).insert key) }

/-- One more timeout of a fault. -/
def countTimeout (s : RunState) (id : ℕ) : RunState :=
  { s with priorTimeoutCount := s.priorTimeoutCount.insert id (s.priorTimeoutCount.getD id 0 + 1) }

/-- `timeout_tiers[min(prior_timeout_count, len - 1)]`. -/
def tierTimeout (cfg : AtpgConfig) (s : RunState) (id : ℕ) : ℕ :=
  cfg.timeoutTiers.getD (min (s.priorTimeoutCount.getD id 0) (cfg.timeoutTiers.length - 1)) 0

end RunState

/-! ## Grading -/

variable (core : Core) (cfg : AtpgConfig) (inputOrder : List String) (modelId : String)
  (preflight : Option PreflightData)

/-- `load_active_fault_records`. -/
def loadActiveFaultRecords (db : FaultTable) (ids : List ℕ) :
    Except RunnerError (List (ℕ × CompactFault)) := do
  let rows ← ids.mapM fun id => match db[id]? with
    | some row => .ok (id, row)
    | none => .error (.faultNotFound id)
  return (rows.filter fun p => p.2.open).map fun p => (p.1, p.2.fault)

/-- `simulate_incremental` for one vector: the table, and the faults detected. -/
def simulateIncremental (db : FaultTable) (vector : PiMap) (ids : List ℕ) :
    Except RunnerError (FaultTable × List ℕ) := do
  let active ← loadActiveFaultRecords db ids
  let detected := (active.filter fun p => core.grade p.2 vector).map Prod.fst
  return (detected.foldl FaultTable.markDetected db, detected)

/-- `_append_unique_vectors`: the new vectors, and the patterns seen. -/
def appendUniqueVectors (seen : TreeSet String) (batch : List PiMap) :
    List PiMap × TreeSet String :=
  batch.foldl (fun acc vector =>
    let key := patternKey vector inputOrder
    if acc.2.contains key then acc else (acc.1 ++ [vector], acc.2.insert key)) ([], seen)

/-- `_random_stop_reached`. -/
def randomStopReached (db : FaultTable) (denominator : ℕ) (threshold : ℚ) : Bool :=
  if threshold ≤ 0 ∨ denominator = 0 then false
  else threshold ≤ 100 * db.countStatus .detected / denominator

/-- The grading loop of the random phase: the vectors it did not come to are
returned. -/
def gradeRandom (core : Core) (cfg : AtpgConfig) (ids : List ℕ) (denominator : ℕ) :
    FaultTable → List PiMap → Except Stopped (FaultTable × List PiMap)
  | db, [] => .ok (db, [])
  | db, vector :: rest => do
    let graded ← stopAt db (simulateIncremental core db vector ids)
    if randomStopReached graded.1 denominator cfg.randomStopCoverage then return (graded.1, rest)
    gradeRandom core cfg ids denominator graded.1 rest

/-- The random phase.  Patterns that were not graded are released. -/
def randomPhase (s : RunState) : Except Stopped RunState := do
  let batch := generateRandomVectors core.randomBit inputOrder cfg.randomVectors
  let fresh := appendUniqueVectors inputOrder s.seenPatterns batch
  let graded ← gradeRandom core cfg s.db.activeIds s.db.coverageDenominator s.db fresh.1
  let count := fresh.1.length - graded.2.length
  return { s with
    db := graded.1
    vectors := s.vectors ++ fresh.1.take count
    seenPatterns := graded.2.foldl (fun seen v => seen.erase (patternKey v inputOrder)) fresh.2
    stats := { s.stats with
      generatedVectors := s.stats.generatedVectors + count
      acceptedVectors := s.stats.acceptedVectors + count } }

/-! ## Solving -/

/-- `solve_fault_for_db`. -/
def solveFaultForDb (db : FaultTable) (call seconds id : ℕ) (blocked : List String) :
    Except RunnerError (Atpg.SolveOutcome PiMap) :=
  match db[id]? with
  | none => .error (.faultNotFound id)
  | some row =>
    if row.open then
      match core.solve call seconds row.fault (blocked.map String.toList) with
      | .ok solved => .ok solved
      | .error e => .error (.core e)
    else .error .faultNotActive

/-- `solve_fault_worker`: an exception is an unknown. -/
def solveFaultWorker (db : FaultTable) (call seconds id : ℕ) (blocked : List String) :
    Atpg.SolveOutcome PiMap :=
  match solveFaultForDb core db call seconds id blocked with
  | .ok solved => solved
  | .error _ => { result := .UNKNOWN, out := none }

/-- The next `size` faults that are still wanted, and the rest of the list. -/
def takeWave (wanted : ℕ → Bool) : ℕ → List ℕ → List ℕ × List ℕ
  | 0, ids => ([], ids)
  | _ + 1, [] => ([], [])
  | size + 1, id :: ids =>
    if wanted id then
      let wave := takeWave wanted size ids
      (id :: wave.1, wave.2)
    else takeWave wanted (size + 1) ids

/-- The loop over the results of `executor.map`, those of the calls from number `call` on.  A
broken pool ends the run; another exception leaves the rest of the wave without results. -/
def fetchResults (core : Core) (cfg : AtpgConfig) :
    ℕ → RoundState → List ℕ → Except Stopped RoundState
  | _, rs, [] => .ok rs
  | call, rs, id :: ids =>
    match core.poolFailure call with
    | some .brokenProcessPool => .error { reason := .workerDied, db := rs.db }
    | some .otherException => .ok rs
    | none =>
      let solved := solveFaultWorker core rs.db call (rs.tierTimeout cfg id) id (rs.blocked id)
      fetchResults core cfg (call + 1)
        { rs with parallelResults := rs.parallelResults.insert id solved } ids

/-- A wave: `executor.map` submits every call before the first result is asked for. -/
def collectWave (rs : RoundState) (ids : List ℕ) : Except Stopped RoundState :=
  fetchResults core cfg rs.calls { rs with calls := rs.calls + ids.length } ids

/-- Faults per wave: `SAT_WAVE_FACTOR` for each worker. -/
def waveSize : ℕ := max cfg.workers 1 * 8

/-- The order in which a wave is submitted. -/
def dispatchOrder (db : FaultTable) (ids : List ℕ) : List ℕ :=
  let coneSize (id : ℕ) : ℕ := (db[id]?).elim (2 ^ 30) fun row => core.coneSize row.fault
  let sorted := if cfg.orderByConeSize then ids.insertionSort fun a b => coneSize a ≤ coneSize b else ids
  if 0 < cfg.easyFaultReserve ∧ 4 ≤ cfg.workers then
    interleaveEasyHard sorted cfg.workers cfg.easyFaultReserve
  else sorted

/-- Solve the next wave in parallel. -/
def dispatchWave (rs : RoundState) : Except Stopped RoundState :=
  let wave := takeWave (fun id => !cfg.faultDropSat || rs.remaining.contains id) (waveSize cfg)
    rs.undispatched
  collectWave core cfg { rs with undispatched := wave.2 } (dispatchOrder core cfg rs.db wave.1)

/-- Dispatch the next wave when a fault has no result yet. -/
def ensureWave (rs : RoundState) (id : ℕ) : Except Stopped RoundState :=
  if 1 < cfg.workers && core.canFork && !rs.parallelResults.contains id then dispatchWave core cfg rs
  else .ok rs

/-- The verdict on one fault: the one of its wave, or that of a call made now. -/
def verdictFor (rs : RoundState) (id : ℕ) : Except Stopped (Atpg.SolveOutcome PiMap × RoundState) :=
  if rs.parallelResults.isEmpty then do
    let solved ← stopAt rs.db
      (solveFaultForDb core rs.db rs.calls (rs.tierTimeout cfg id) id (rs.blocked id))
    return (solved, { rs with calls := rs.calls + 1 })
  else
    return ((rs.parallelResults[id]?).getD { result := .UNKNOWN, out := none },
      { rs with parallelResults := rs.parallelResults.erase id })

/-- A pattern that does not count for a fault: it is not to be tried again. -/
def noProgress (rs : RoundState) (id : ℕ) (key : String) : RoundState :=
  { rs with
    toRunState := { rs.reject id key with stats := { rs.stats with
      protocolNoProgressRounds := rs.stats.protocolNoProgressRounds + 1 } }
    outcomes := rs.outcomes ++ [.protocolNoProgress] }

/-- A candidate that was verified: it is graded, against every remaining fault or
against its target only. -/
def acceptCandidate (rs : RoundState) (id : ℕ) (key : String) (candidate : PiMap) :
    Except Stopped RoundState := do
  let ids := if cfg.faultDropSat then rs.remaining.toList else [id]
  let graded ← stopAt rs.db (simulateIncremental core rs.db candidate ids)
  return { rs with
    db := graded.1
    vectors := rs.vectors ++ [candidate]
    seenPatterns := rs.seenPatterns.insert key
    stats := { rs.stats with acceptedVectors := rs.stats.acceptedVectors + 1 }
    remaining := if cfg.faultDropSat then graded.2.foldl TreeSet.erase rs.remaining else rs.remaining
    outcomes := rs.outcomes ++ [.sat] }

/-- A candidate: a pattern seen before, one that does not stand the test, or one
to accept. -/
def handleCandidate (rs : RoundState) (id : ℕ) (candidate : PiMap) : Except Stopped RoundState :=
  let key := patternKey candidate inputOrder
  let rs := { rs with stats := { rs.stats with
    sat := rs.stats.sat + 1, generatedVectors := rs.stats.generatedVectors + 1 } }
  if rs.seenPatterns.contains key then .ok (noProgress rs id key)
  else
    match rs.db[id]? with
    | none => .error { reason := .faultNotFound id, db := rs.db }
    | some row =>
      if core.verify row.fault candidate then acceptCandidate core cfg rs id key candidate
      else .ok (noProgress { rs with stats := { rs.stats with
        rejectedCandidates := rs.stats.rejectedCandidates + 1 } } id key)

/-- What a verdict does. -/
def handleVerdict (rs : RoundState) (id : ℕ) (solved : Atpg.SolveOutcome PiMap) :
    Except Stopped RoundState :=
  match solved.result with
  | .SAT => handleCandidate core cfg inputOrder rs id (solved.out.getD ∅)
  | .UNSAT => .ok { rs with
      db := rs.db.markRedundant modelId id
      stats := { rs.stats with unsat := rs.stats.unsat + 1 } }
  | .TIMEOUT => .ok { rs with
      toRunState := { rs.countTimeout id with
        stats := { rs.stats with timeout := rs.stats.timeout + 1 } }
      outcomes := rs.outcomes ++ [.timeout] }
  | .UNKNOWN => .ok { rs with
      toRunState := { rs.countTimeout id with
        stats := { rs.stats with unknown := rs.stats.unknown + 1 } }
      outcomes := rs.outcomes ++ [.unknown] }

/-- One turn of the loop over the active faults. -/
def processFault (rs : RoundState) (id : ℕ) : Except Stopped RoundState := do
  if cfg.faultDropSat && !rs.remaining.contains id then return rs
  let rs ← ensureWave core cfg rs id
  let verdict ← verdictFor core cfg rs id
  handleVerdict core cfg inputOrder modelId verdict.2 id verdict.1

/-! ## Rounds -/

/-- `_should_stall`. -/
def shouldStall (before after : FaultTable) (outcomes : List RoundOutcome) : Bool :=
  after.countStatus .detected = before.countStatus .detected &&
    after.countStatus .redundant = before.countStatus .redundant &&
    outcomes.all fun outcome => outcome = .timeout || outcome = .unknown

/-- `_escalation_headroom`. -/
def escalationHeadroom (s : RunState) : Bool :=
  s.db.activeIds.any fun id =>
    0 < s.priorTimeoutCount.getD id 0 && s.priorTimeoutCount.getD id 0 < cfg.timeoutTiers.length

/-- A fault on a reconvergent stem. -/
def isReconvergent (db : FaultTable) (id : ℕ) : Bool :=
  match preflight, db[id]? with
  | some data, some row => data.fanoutYosysIds.contains row.netId
  | _, _ => false

/-- Reconvergent faults skip the first tier, and come last. -/
def seedTimeouts (s : RunState) : RunState :=
  let ids := s.db.activeIds.filter (isReconvergent preflight s.db)
  let bump (counts : TreeMap ℕ ℕ) (id : ℕ) := counts.insert id (max 1 (counts.getD id 0))
  { s with priorTimeoutCount := ids.foldl bump s.priorTimeoutCount }

/-- The faults of a round, reconvergent ones last. -/
def roundOrder (db : FaultTable) : List ℕ :=
  db.activeIds.filter (fun id => !isReconvergent preflight db id) ++
    db.activeIds.filter (isReconvergent preflight db)

/-- The solving phase of a round. -/
def satPhase (s : RunState) : Except Stopped RoundState :=
  let s := seedTimeouts preflight s
  let ids := roundOrder preflight s.db
  ids.foldlM (processFault core cfg inputOrder modelId)
    { s with remaining := TreeSet.ofList ids, undispatched := ids }

/-- The end of a round: the reason to stop, if there is one. -/
def roundEnd (before : FaultTable) (rs : RoundState) : Option Terminal :=
  if rs.db.activeIds.isEmpty then some .complete
  else if rs.db.coveragePercent.any fun coverage => cfg.targetCoverage ≤ coverage then
    some .thresholdMet
  else if shouldStall before rs.db rs.outcomes && !escalationHeadroom cfg rs.toRunState then
    some .stalled
  else none

/-- The random phase belongs to the first round. -/
def fillPhase (s : RunState) (index : ℕ) : Except Stopped RunState :=
  if index = 1 then randomPhase core cfg inputOrder s else .ok s

/-- One round; the first begins with the random phase. -/
def round (s : RunState) (index : ℕ) : Except Stopped (RunState × Option Terminal) := do
  let s := { s with stats := { s.stats with rounds := index } }
  let before := s.db
  if before.activeIds.isEmpty then return (s, some .complete)
  let s ← fillPhase core cfg inputOrder s index
  if index = 1 && cfg.randomOnly then return (s, some .randomOnly)
  let rs ← satPhase core cfg inputOrder modelId preflight s
  return (rs.toRunState, roundEnd cfg before rs)

/-- The rounds `index`, `index + 1`, … -/
def rounds (core : Core) (cfg : AtpgConfig) (inputOrder : List String) (modelId : String)
    (preflight : Option PreflightData) : ℕ → ℕ → RunState → Except Stopped (RunState × Terminal)
  | 0, _, s => .ok (s, .maxRounds)
  | n + 1, index, s => do
    let r ← round core cfg inputOrder modelId preflight s index
    match r.2 with
    | some terminal => return (r.1, terminal)
    | none => rounds core cfg inputOrder modelId preflight n (index + 1) r.1

/-- The table when the rounds begin: stale verdicts dropped, and the stems that
preflight found to cancel marked. -/
def initialTable (db : FaultTable) : FaultTable :=
  let db := db.invalidateStaleRedundant modelId
  match preflight with
  | some data => db.precertifyRedundant data.redundantStemIds modelId
  | none => db

/-- `run_progressive_native_atpg`, on the rows that `ensure_faults_enumerated` left. -/
def runProgressiveNativeAtpg (db : FaultTable) : Except Stopped (RunState × Terminal) :=
  if cfg.maxRounds < 1 then .error { reason := .maxRoundsBelowOne, db }
  else if ¬ (0 < cfg.targetCoverage ∧ cfg.targetCoverage ≤ 100) then
    .error { reason := .targetOutOfRange, db }
  else do
    let r ← rounds core cfg inputOrder modelId preflight cfg.maxRounds 1
      { db := initialTable modelId preflight db }
    if r.1.db.denominator = 0 then .error { reason := .denominatorZero, db := r.1.db } else .ok r

/-- The table a run leaves behind, whether it ends well or not. -/
def finalTable : Except Stopped (RunState × Terminal) → FaultTable
  | .ok r => r.1.db
  | .error stopped => stopped.db

end FaultFlow.Runner
