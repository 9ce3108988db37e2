/-
# The scan campaign

`run_progressive_scan_atpg` of `faultflow/scan/detection_pipeline.py`: rounds that grade random
vectors once and then solve one fault after the other, all of them ahead when there are workers.
A candidate that passes for some fault is stored, with its detections, by
`_process_scan_candidate`; the caller then adds its own copy to the vectors it returns.

The rows of `faults` are those that the enumeration and `apply_scan_execution_map` left, with the
fault at its net in the view.  Left out are the clocks, the log, and the reasons of
`record_sat_outcomes`.
-/

import FaultFlow.Scan.CandidateGrading

namespace FaultFlow.Scan

open Std (TreeMap TreeSet)
open Runner

/-- The extension, with the solver of the campaign; `call` numbers its calls. -/
structure ScanCore extends PipelineCore where
  /-- The vector, or the two frames of a transition test. -/
  solve : (call seconds : ℕ) → CompactFault → List (List Char) →
    Except FlowError (Atpg.SolveOutcome (PiMap × PiMap))
  /-- `compute_fault_cone_sizes`. -/
  coneSize : CompactFault → ℕ
  /-- The low bits of the random generator. -/
  randomBit : ℕ → Bool
  /-- What the pool raises for a worker's call, if anything. -/
  poolFailure : ℕ → Option PoolFailure := fun _ => none
  /-- A pool of forked workers can be had. -/
  canFork : Bool := true

/-- A row of `vectors`. -/
structure StoredVector where
  vectorIndex : ℕ
  pattern : String
  launchPattern : String
deriving DecidableEq, Repr

/-- What a campaign carries along: the state of a run, and what it has written. -/
structure ScanRunState extends RunState where
  /-- The rows of `vectors`. -/
  stored : List StoredVector := []
  /-- The rows of `fault_detections`: the fault, and the index of the vector. -/
  detections : List (ℕ × ℕ) := []
  /-- The rows of `blocked_patterns`. -/
  blockedPatterns : TreeMap ℕ (TreeSet String) := ∅
  acceptedPatterns : List ScanPattern := []

/-! ## One candidate -/

variable (core : ScanCore) (cfg : AtpgConfig) (ctx : PipelineContext) (modelId : String)
  (preflight : Option PreflightData) (db : FaultTable) (s : ScanRunState)

/-- The update of `faults` in `_apply_candidate_commit`. -/
def creditFault (id : ℕ) : FaultTable :=
  db.modify id fun row => { row with status := .detected, protocolUnresolved := false }

/-- Add to the blocked patterns. -/
def blockPattern (key : String) (blocked : TreeMap ℕ (TreeSet String)) (id : ℕ) :
    TreeMap ℕ (TreeSet String) :=
  blocked.insert id ((blocked.getD id ∅).insert key)

/-- `INSERT OR IGNORE INTO fault_detections`. -/
def recordDetection (index : ℕ) (detections : List (ℕ × ℕ)) (id : ℕ) : List (ℕ × ℕ) :=
  if (id, index) ∈ detections then detections else detections ++ [(id, index)]

/-- The commit of a candidate that passed for some fault. -/
def ScanRunState.commit (graded : Graded) (trackKey : String) : ScanRunState :=
  let index := s.vectors.length + 1
  { s with
    db := graded.passed.foldl creditFault s.db
    stored := s.stored ++
      [{ vectorIndex := index, pattern := graded.frames.pattern
         launchPattern := graded.frames.launchPattern }]
    detections := graded.passed.foldl (recordDetection index) s.detections
    blockedPatterns := graded.blocked.foldl (blockPattern trackKey) s.blockedPatterns
    acceptedPatterns := s.acceptedPatterns ++ [graded.scanPattern] }

/-- `_process_scan_candidate`: the state it leaves, and whether it accepted. -/
def processScanCandidate (core : PipelineCore) (ctx : PipelineContext) (s : ScanRunState)
    (c : Candidate) (candidateKey : Option String) : Except PipelineError (ScanRunState × Bool) := do
  let trackKey := candidateKey.getD (patternKey (ctx.applied c.vector) ctx.inputOrder)
  let graded ← gradeCandidate core ctx c
  if graded.passed.isEmpty then
    return ({ s with
      blockedPatterns := graded.blocked.foldl (blockPattern trackKey) s.blockedPatterns }, false)
  return (s.commit graded trackKey, true)

/-- The caller's part: its own vector goes to the vectors it returns. -/
def ScanRunState.append (vector : PiMap) : ScanRunState :=
  { s with
    vectors := s.vectors ++ [vector]
    stats := { s.stats with acceptedVectors := s.stats.acceptedVectors + 1 } }

/-- One more rejected candidate. -/
def ScanRunState.countRejected : ScanRunState :=
  { s with stats := { s.stats with rejectedCandidates := s.stats.rejectedCandidates + 1 } }

/-- One more candidate. -/
def ScanRunState.countGenerated : ScanRunState :=
  { s with stats := { s.stats with generatedVectors := s.stats.generatedVectors + 1 } }

/-! ## The random phase -/

/-- The heads of the chains, with their chains: `head_ports` and `head_by_chain` of
`build_los_couples`. -/
def chainHeads (ports : List PseudoPort) : List (ℤ × String) :=
  (ports.filter fun e => e.positionInChain = 0).map fun e => (e.chainId, e.ppiPort)

/-- `couple_ports` of `build_los_couples`: a flip-flop and the one in front of it. -/
def buildLosCouples (ports : List PseudoPort) : Except PipelineError (List (String × String)) :=
  (ports.filter fun e => e.positionInChain ≠ 0).mapM fun e => do
    return (e.ppiPort, (← predecessor ports e).ppiPort)

/-- The key of a candidate: for launch-on-shift with the bits at the heads. -/
def candidateKey (vector : PiMap) (head : String → Bool) : String :=
  patternKey vector ctx.inputOrder ++
    if ctx.launch = .los then
      String.ofList ((chainHeads ctx.pseudoPorts).map fun h => if head h.2 then '1' else '0')
    else ""

/-- The key of a random vector, whose heads are `0`. -/
def randomKey (vector : PiMap) : String := candidateKey ctx vector fun _ => false

/-- The key that `_process_scan_candidate` is given: none but for launch-on-shift. -/
def losKey (key : String) : Option String :=
  if ctx.launch = .los then some key else none

/-- `_active_fault_rows`, with the faults. -/
def activeRows : List (ℕ × CompactFault) :=
  (db.toList.filter fun p => p.2.active).map fun p => (p.1, p.2.fault)

/-- The vectors of a batch with new keys, and the keys seen. -/
def freshVectors (seen : TreeSet String) (batch : List PiMap) : List PiMap × TreeSet String :=
  batch.foldl (fun acc vector =>
    if acc.2.contains (randomKey ctx vector) then acc
    else (acc.1 ++ [vector], acc.2.insert (randomKey ctx vector))) ([], seen)

/-- One random vector. -/
def gradeRandomVector (rows : List (ℕ × CompactFault)) (s : ScanRunState) (vector : PiMap) :
    Except PipelineError ScanRunState := do
  let out ← processScanCandidate core.toPipelineCore ctx s.countGenerated
    { vector := vector, activeRows := rows } (losKey ctx (randomKey ctx vector))
  return if out.2 then out.1.append vector else out.1.countRejected

/-- The loop over the random vectors: those it did not come to are returned. -/
def gradeRandomVectors (core : ScanCore) (cfg : AtpgConfig) (ctx : PipelineContext)
    (rows : List (ℕ × CompactFault)) (denominator : ℕ) :
    ScanRunState → List PiMap → Except PipelineError (ScanRunState × List PiMap)
  | s, [] => .ok (s, [])
  | s, vector :: rest => do
    let s ← gradeRandomVector core ctx rows s vector
    if randomStopReached s.db denominator cfg.randomStopCoverage then return (s, rest)
    gradeRandomVectors core cfg ctx rows denominator s rest

/-- The random phase.  The keys of vectors that were not graded are released. -/
def scanRandomPhase : Except PipelineError ScanRunState := do
  let batch := generateRandomVectors core.randomBit ctx.inputOrder cfg.randomVectors
  let fresh := freshVectors ctx s.seenPatterns batch
  let graded ← gradeRandomVectors core cfg ctx (activeRows s.db) s.db.coverageDenominator
    { s with seenPatterns := fresh.2 } fresh.1
  return { graded.1 with
    seenPatterns := graded.2.foldl (fun seen v => seen.erase (randomKey ctx v))
      graded.1.seenPatterns }

/-! ## The solving phase -/

/-- What a round carries from fault to fault. -/
structure ScanRoundState extends ScanRunState where
  /-- `current_active_ids`. -/
  current : TreeSet ℕ
  outcomes : List RoundOutcome := []

/-- What the solving phase of a round starts with: the rows in order, the blocked patterns of the
database, and the answers that workers gave ahead. -/
structure SatPlan where
  rows : List (ℕ × CompactFault)
  dbBlocked : TreeMap ℕ (TreeSet String)
  parallelResults : TreeMap ℕ (Atpg.SolveOutcome (PiMap × PiMap)) := ∅

/-- The patterns a fault is not to be given again. -/
def blockedFor (dbBlocked : TreeMap ℕ (TreeSet String)) (s : RunState) (id : ℕ) : List String :=
  ((dbBlocked.getD id ∅).toList.foldl TreeSet.insert (s.rejectedPatterns.getD id ∅)).toList

/-- A call of the solver, for a fault that is open. -/
def solveForDb (call seconds id : ℕ) (blocked : List String) :
    Except PipelineError (Atpg.SolveOutcome (PiMap × PiMap)) :=
  match db[id]? with
  | none => .error (.faultNotFound id)
  | some row =>
    if row.open then (core.solve call seconds row.fault (blocked.map String.toList)).mapError .core
    else .error .faultNotActive

/-- `solve_fault_worker`: an exception is an unknown. -/
def solveWorker (call seconds id : ℕ) (blocked : List String) : Atpg.SolveOutcome (PiMap × PiMap) :=
  match solveForDb core db call seconds id blocked with
  | .ok solved => solved
  | .error _ => { result := .UNKNOWN, out := none }

/-- The loop over the results of `executor.map`, those of the calls from number `call` on.  A
broken pool ends the run; another exception leaves the rest of the faults without results. -/
def solveAhead (core : ScanCore) (cfg : AtpgConfig) (dbBlocked : TreeMap ℕ (TreeSet String))
    (s : ScanRunState) : ℕ → List ℕ → TreeMap ℕ (Atpg.SolveOutcome (PiMap × PiMap)) →
      Except PipelineError (TreeMap ℕ (Atpg.SolveOutcome (PiMap × PiMap)))
  | _, [], results => .ok results
  | call, id :: ids, results =>
    match core.poolFailure call with
    | some .brokenProcessPool => .error .workerDied
    | some .otherException => .ok results
    | none =>
      let solved := solveWorker core s.db call (s.tierTimeout cfg id) id
        (blockedFor dbBlocked s.toRunState id)
      solveAhead core cfg dbBlocked s (call + 1) ids (results.insert id solved)

/-- The rows of a round: those on reconvergent stems last, and small cones first. -/
def orderRows : List (ℕ × CompactFault) :=
  let coneSize (row : ℕ × CompactFault) : ℕ :=
    if cfg.orderByConeSize && !ctx.transition then core.coneSize row.2 else 0
  let key (row : ℕ × CompactFault) : ℕ × ℕ :=
    (if isReconvergent preflight db row.1 then 1 else 0, coneSize row)
  (activeRows db).insertionSort fun a b =>
    (key a).1 < (key b).1 ∨ ((key a).1 = (key b).1 ∧ (key a).2 ≤ (key b).2)

/-- The answers of the workers, if there are any; all calls are submitted before the first answer
is asked for. -/
def presolve (rows : List (ℕ × CompactFault)) : Except PipelineError (ScanRunState × SatPlan) :=
  if 1 < cfg.workers && core.canFork && !rows.isEmpty then do
    let order := if 0 < cfg.easyFaultReserve ∧ 4 ≤ cfg.workers then
      interleaveEasyHard rows cfg.workers cfg.easyFaultReserve else rows
    let results ← solveAhead core cfg s.blockedPatterns s s.calls (order.map Prod.fst) ∅
    return ({ s with calls := s.calls + order.length },
      { rows := rows, dbBlocked := s.blockedPatterns, parallelResults := results })
  else .ok (s, { rows := rows, dbBlocked := s.blockedPatterns })

/-- The answer for one fault: the one given ahead, or that of a call made now. -/
def answerFor (plan : SatPlan) (rs : ScanRoundState) (id : ℕ) :
    Except PipelineError (Atpg.SolveOutcome (PiMap × PiMap) × ScanRoundState) :=
  if plan.parallelResults.isEmpty then do
    let solved ← solveForDb core rs.db rs.calls (rs.tierTimeout cfg id) id
      (blockedFor plan.dbBlocked rs.toRunState id)
    return (solved, { rs with calls := rs.calls + 1 })
  else return ((plan.parallelResults[id]?).getD { result := .UNKNOWN, out := none }, rs)

namespace ScanRoundState

/-- A pattern is not to be tried again for a fault. -/
def rejectKey (rs : ScanRoundState) (id : ℕ) (key : String) : ScanRoundState :=
  { rs with rejectedPatterns :=
      rs.rejectedPatterns.insert id ((rs.rejectedPatterns.getD id ∅).insert key) }

/-- A pattern that does not count. -/
def noProgress (rs : ScanRoundState) : ScanRoundState :=
  { rs with
    stats := { rs.stats with protocolNoProgressRounds := rs.stats.protocolNoProgressRounds + 1 }
    outcomes := rs.outcomes ++ [.protocolNoProgress] }

/-- A candidate that was accepted: the caller's copy is added, and the active faults are read
again. -/
def accept (rs : ScanRoundState) (key : String) (vector : PiMap) : ScanRoundState :=
  { rs with
    toScanRunState := { rs.append vector with seenPatterns := rs.seenPatterns.insert key }
    current := TreeSet.ofList rs.db.activeIds
    outcomes := rs.outcomes ++ [.sat] }

/-- A fault that took too long. -/
def countTimeout (rs : ScanRoundState) (id : ℕ) (stats : AtpgStats) (outcome : RoundOutcome) :
    ScanRoundState :=
  { rs with
    priorTimeoutCount := rs.priorTimeoutCount.insert id (rs.priorTimeoutCount.getD id 0 + 1)
    stats := stats
    outcomes := rs.outcomes ++ [outcome] }

end ScanRoundState

/-- The bits at the heads of the chains in a capture frame. -/
def headBits (capture : PiMap) : TreeMap ℤ Bool :=
  if ctx.launch = .los then
    (chainHeads ctx.pseudoPorts).foldl (fun m h => m.insert h.1 (capture.getD h.2 false)) ∅
  else ∅

/-- A vector of the solver: a pattern seen before, or a candidate. -/
def handleSat (plan : SatPlan) (rs : ScanRoundState) (row : ℕ × CompactFault)
    (solved : PiMap × PiMap) : Except PipelineError ScanRoundState := do
  let rs := { rs with stats := { rs.stats with
    sat := rs.stats.sat + 1, generatedVectors := rs.stats.generatedVectors + 1 } }
  let key := candidateKey ctx solved.1 fun head => solved.2.getD head false
  if rs.seenPatterns.contains key then return (rs.rejectKey row.1 key).noProgress
  let out ← processScanCandidate core.toPipelineCore ctx rs.toScanRunState
    { vector := solved.1, target := some row, activeRows := plan.rows
      heads := headBits ctx solved.2 } (losKey ctx key)
  let rs := { rs with toScanRunState := out.1 }
  return if out.2 then rs.accept key solved.1
    else ({ rs with toScanRunState := rs.countRejected }.rejectKey row.1 key).noProgress

/-- `mark_fault_protocol_unresolved`. -/
def markProtocolUnresolved (id : ℕ) : FaultTable :=
  db.modify id fun row =>
    if row.status ≠ .detected then { row with protocolUnresolved := true } else row

/-- A fault that no vector of the view detects: redundant, unless it is the output of a
flip-flop. -/
def handleUnsat (id : ℕ) : FaultTable :=
  if ctx.siteKey id ∈ ctx.qStemSiteKeys then markProtocolUnresolved db id
  else db.markRedundant modelId id

/-- What an answer does. -/
def handleAnswer (plan : SatPlan) (rs : ScanRoundState) (row : ℕ × CompactFault)
    (answer : Atpg.SolveOutcome (PiMap × PiMap)) : Except PipelineError ScanRoundState :=
  match answer.result with
  | .SAT => handleSat core ctx plan rs row (answer.out.getD (∅, ∅))
  | .UNSAT => .ok { rs with
      db := handleUnsat ctx modelId rs.db row.1
      stats := { rs.stats with unsat := rs.stats.unsat + 1 } }
  | .TIMEOUT =>
    .ok (rs.countTimeout row.1 { rs.stats with timeout := rs.stats.timeout + 1 } .timeout)
  | .UNKNOWN =>
    .ok (rs.countTimeout row.1 { rs.stats with unknown := rs.stats.unknown + 1 } .unknown)

/-- One turn of the loop over the active faults. -/
def processRow (plan : SatPlan) (rs : ScanRoundState) (row : ℕ × CompactFault) :
    Except PipelineError ScanRoundState := do
  if !rs.current.contains row.1 then return rs
  let answer ← answerFor core cfg plan rs row.1
  handleAnswer core ctx modelId plan answer.2 row answer.1

/-- The solving phase of a round. -/
def scanSatPhase : Except PipelineError ScanRoundState := do
  let s := { s with toRunState := seedTimeouts preflight s.toRunState }
  let rows := orderRows core cfg ctx preflight s.db
  let ready ← presolve core cfg s rows
  rows.foldlM (processRow core cfg ctx modelId ready.2)
    { toScanRunState := ready.1, current := TreeSet.ofList (rows.map Prod.fst) }

/-! ## Rounds -/

/-- `_termination_sweep_q_stems`. -/
def sweepQStems : FaultTable :=
  db.map fun id row =>
    if row.open ∧ ctx.siteKey id ∈ ctx.qStemSiteKeys then { row with protocolUnresolved := true }
    else row

/-- The end of a round: the reason to stop, if there is one. -/
def scanRoundEnd (before : FaultTable) (rs : ScanRoundState) : Option Terminal :=
  if rs.db.activeIds.isEmpty then some .complete
  else if rs.db.coveragePercent.any fun coverage => cfg.targetCoverage ≤ coverage then
    some .thresholdMet
  else if shouldStall before rs.db rs.outcomes && !escalationHeadroom cfg rs.toRunState then
    some .stalled
  else none

/-- The random phase belongs to the first round. -/
def scanFillPhase (index : ℕ) : Except PipelineError ScanRunState :=
  if index = 1 then scanRandomPhase core cfg ctx s else .ok s

/-- One round; the first begins with the random phase. -/
def scanRound (index : ℕ) : Except PipelineError (ScanRunState × Option Terminal) := do
  let s := { s with stats := { s.stats with rounds := index } }
  let before := s.db
  if before.activeIds.isEmpty then return (s, some .complete)
  let s ← scanFillPhase core cfg ctx s index
  if index = 1 && cfg.randomOnly then return (s, some .randomOnly)
  let rs ← scanSatPhase core cfg ctx modelId preflight s
  return (rs.toScanRunState, scanRoundEnd cfg before rs)

/-- The rounds `index`, `index + 1`, …; a run that stalls or runs out of rounds gives up on the
outputs of flip-flops. -/
def scanRounds (core : ScanCore) (cfg : AtpgConfig) (ctx : PipelineContext) (modelId : String)
    (preflight : Option PreflightData) :
    ℕ → ℕ → ScanRunState → Except PipelineError (ScanRunState × Terminal)
  | 0, _, s => .ok ({ s with db := sweepQStems ctx s.db }, .maxRounds)
  | n + 1, index, s => do
    let r ← scanRound core cfg ctx modelId preflight s index
    match r.2 with
    | some .stalled => return ({ r.1 with db := sweepQStems ctx r.1.db }, .stalled)
    | some terminal => return (r.1, terminal)
    | none => scanRounds core cfg ctx modelId preflight n (index + 1) r.1

/-- `_mark_preflight_redundant`. -/
def markPreflightRedundant : FaultTable :=
  match preflight with
  | none => db
  | some data =>
    ((db.toList.filter fun p => p.2.open && data.redundantStemIds.contains p.2.netId).map
      Prod.fst).foldl (handleUnsat ctx modelId) db

/-- `_guard_transition_on_scan_wbr`, the couples of launch-on-shift, and the two options. -/
def checkCampaign (scanWbr : Bool) : Except PipelineError Unit :=
  if ctx.transition && scanWbr then .error .transitionOnScanWbr
  else do
    if ctx.launch = .los then
      let _ ← buildLosCouples ctx.pseudoPorts
    if cfg.maxRounds < 1 then throw .maxRoundsBelowOne
    if ¬ (0 < cfg.targetCoverage ∧ cfg.targetCoverage ≤ 100) then throw .targetOutOfRange

/-- `run_progressive_scan_atpg`.  `scanWbr` says that the model is the scan wrapper and that the
design has wrapper chains. -/
def runProgressiveScanAtpg (scanWbr : Bool) (modelId : String) (preflight : Option PreflightData)
    (db : FaultTable) : Except PipelineError (ScanRunState × Terminal) := do
  checkCampaign cfg ctx scanWbr
  let preflight := if ctx.transition then none else preflight
  let db := markPreflightRedundant ctx modelId preflight (db.invalidateStaleRedundant modelId)
  let r ← scanRounds core cfg ctx modelId preflight cfg.maxRounds 1 { db := db }
  if r.1.db.denominator = 0 then .error .denominatorZero else .ok r

end FaultFlow.Scan
