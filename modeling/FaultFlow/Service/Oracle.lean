/-
# The oracle response

`faultflow/service/oracle.py`: `build_oracle_response` makes the flat response that the caller
of a campaign reads from its coverage report.  The terminal reason is the one the progressive
loop stored with the run (`complete_run_with_atpg` in `src/core/db/sqlite_store.cpp`), through
`map_terminal_reason`.

What a stored reason says of the coverage is `Terminal.Says`.  The loop stores its reasons in
upper case and the map knows lower-case ones, so the response says `exhausted` whatever the
loop found: it is right about the target exactly when the target was missed
(`oracle_terminal_iff`).
-/

import FaultFlow.Runner.Stalling

namespace FaultFlow

open Lib Runner

/-! ## What the reasons of the loop say -/

namespace Runner

/-- The coverage is at or above the target. -/
def TargetReached (cfg : AtpgConfig) (db : FaultTable) : Prop :=
  db.coveragePercent.any (fun coverage => cfg.targetCoverage ≤ coverage) = true

instance (cfg : AtpgConfig) (db : FaultTable) : Decidable (TargetReached cfg db) :=
  inferInstanceAs (Decidable (_ = true))

/-- What a terminal reason says of the table that the loop leaves. -/
def Terminal.Says (cfg : AtpgConfig) (db : FaultTable) : Terminal → Prop
  | .thresholdMet => TargetReached cfg db
  | .stalled | .maxRounds => ¬ TargetReached cfg db
  | .complete => db.activeIds = []
  | .randomOnly => cfg.randomOnly = true

section

variable {core : Core} {cfg : AtpgConfig} {inputOrder : List String} {modelId : String}
  {preflight : Option PreflightData}

theorem roundEnd_says {before : FaultTable} {rs : RoundState} :
    ((roundEnd cfg before rs).getD .maxRounds).Says cfg rs.db := by
  unfold roundEnd
  split
  · rename_i hempty
    exact List.isEmpty_iff.1 hempty
  · split
    · assumption
    · rename_i hmissed
      split
      · exact hmissed
      · exact hmissed

/-- A round that goes on leaves the target missed, as `maxRounds` says. -/
theorem round_says {s s' : RunState} {index : ℕ} {ended : Option Terminal}
    (h : round core cfg inputOrder modelId preflight s index = .ok (s', ended)) :
    (ended.getD .maxRounds).Says cfg s'.db := by
  unfold round at h
  dsimp only at h
  split at h
  · rename_i hempty
    cases h
    exact List.isEmpty_iff.1 hempty
  · obtain ⟨s₁, -, h⟩ := bind_eq_ok.1 h
    split at h
    · rename_i hrandom
      cases h
      exact (Bool.and_eq_true _ _ ▸ hrandom).2
    · obtain ⟨rs, -, h⟩ := bind_eq_ok.1 h
      cases h
      exact roundEnd_says

theorem rounds_says {n index : ℕ} {s s' : RunState} {t : Terminal}
    (hs : n = 0 → ¬ TargetReached cfg s.db)
    (h : rounds core cfg inputOrder modelId preflight n index s = .ok (s', t)) :
    t.Says cfg s'.db := by
  induction n generalizing index s with
  | zero =>
    cases h
    exact hs rfl
  | succ n ih =>
    rw [rounds] at h
    obtain ⟨⟨s₁, ended⟩, hround, h⟩ := bind_eq_ok.1 h
    have hsays := round_says hround
    cases ended with
    | some t' =>
      cases h
      exact hsays
    | none => exact ih (fun _ => hsays) h

/-- **The reason of a finished run** is true of the table it leaves. -/
theorem runProgressiveNativeAtpg_says {db : FaultTable} {r : RunState × Terminal}
    (h : runProgressiveNativeAtpg core cfg inputOrder modelId preflight db = .ok r) :
    r.2.Says cfg r.1.db := by
  unfold runProgressiveNativeAtpg at h
  split at h
  · cases h
  rename_i hmax
  split at h
  · cases h
  obtain ⟨r', hrounds, h⟩ := bind_eq_ok.1 h
  split at h
  · cases h
  obtain rfl := Except.ok.inj h
  exact rounds_says (fun hzero => absurd hzero (by omega)) hrounds

end

/-- A reason as the loop writes it. -/
def Terminal.text : Terminal → String
  | .maxRounds => "MAX_ROUNDS"
  | .complete => "COMPLETE"
  | .randomOnly => "RANDOM_ONLY"
  | .thresholdMet => "THRESHOLD_MET"
  | .stalled => "STALLED"

end Runner

namespace Service

/-! ## The response -/

/-- The columns of a run that the response reads. -/
structure RunRow where
  vectorCount : Option ℕ
  atpgTerminalReason : Option String

/-- What `complete_run_with_atpg` stores: an empty reason is `NULL`. -/
def storedReason (reason : String) : Option String :=
  if reason.isEmpty then none else some reason

/-- The part of a coverage report that the response reads; faults and nodes pass through. -/
structure CoverageReport (α β : Type) where
  faultCoveragePercent : Option ℚ
  run : RunRow
  undetectedFaults : List α
  perNode : List β

/-- The keys of `tpi_manifest.json` that the response repeats. -/
structure TpiManifest where
  sessionId : Option String
  iteration : Option ℤ

/-- The response; `session` has the two keys that a manifest adds. -/
structure OracleResponse (α β : Type) where
  backend : String
  coveragePercent : ℚ
  faultCoveragePercent : ℚ
  vectorCount : ℕ
  terminalReason : String
  undetectedFaults : List α
  perNode : List β
  session : Option (String × ℤ)

/-- `_TERMINAL_MAP`. -/
def terminalMap : List (String × String) :=
  [("target_reached", "target_reached"), ("exhausted", "exhausted"), ("stalled", "exhausted"),
    ("timeout", "timeout"), ("unknown", "timeout")]

/-- `map_terminal_reason`. -/
def mapTerminalReason (reason : String) : String := (terminalMap.lookup reason).getD "exhausted"

/-- `run.get("atpg_terminal_reason") or "exhausted"`. -/
def terminalRaw (run : RunRow) : String :=
  match run.atpgTerminalReason with
  | none => "exhausted"
  | some reason => if reason.isEmpty then "exhausted" else reason

/-- `build_oracle_response`. -/
def buildOracleResponse {α β : Type} (report : CoverageReport α β)
    (manifest : Option TpiManifest) : OracleResponse α β :=
  let faultCov := report.faultCoveragePercent.getD 0
  { backend := "faultflow"
    coveragePercent := faultCov
    faultCoveragePercent := faultCov
    vectorCount := report.run.vectorCount.getD 0
    terminalReason := mapTerminalReason (terminalRaw report.run)
    undetectedFaults := report.undetectedFaults
    perNode := report.perNode
    session := manifest.map fun m => (m.sessionId.getD "", m.iteration.getD 0) }

/-- Every reason of the loop is unknown to the map. -/
theorem mapTerminalReason_text (t : Terminal) {run : RunRow}
    (h : run.atpgTerminalReason = storedReason t.text) :
    mapTerminalReason (terminalRaw run) = "exhausted" := by
  rw [terminalRaw, h]
  cases t <;> decide

/-- **The response says `exhausted`** for every finished campaign.  So it is right about the
target exactly when that was missed: never after a stop at the threshold, always after a stall
or the last round. -/
theorem oracle_terminal_iff {α β : Type} (core : Core) (cfg : AtpgConfig)
    (inputOrder : List String) (modelId : String) (preflight : Option PreflightData)
    (db : FaultTable) (r : RunState × Terminal)
    (hrun : runProgressiveNativeAtpg core cfg inputOrder modelId preflight db = .ok r)
    (report : CoverageReport α β)
    (hreport : report.run.atpgTerminalReason = storedReason r.2.text)
    (manifest : Option TpiManifest) :
    (buildOracleResponse report manifest).terminalReason = "exhausted" ∧
      (((buildOracleResponse report manifest).terminalReason = "target_reached" ↔
        TargetReached cfg r.1.db) ↔ ¬ TargetReached cfg r.1.db) ∧
      (r.2 = .thresholdMet → TargetReached cfg r.1.db) ∧
      (r.2 = .stalled ∨ r.2 = .maxRounds → ¬ TargetReached cfg r.1.db) := by
  have hexhausted : (buildOracleResponse report manifest).terminalReason = "exhausted" :=
    mapTerminalReason_text r.2 hreport
  have hsays := runProgressiveNativeAtpg_says hrun
  refine ⟨hexhausted, ?_, fun ht => ?_, fun ht => ?_⟩
  · rw [hexhausted]
    simp
  · rwa [ht] at hsays
  · rcases ht with ht | ht <;> rwa [ht] at hsays

/-! ## A campaign that reaches its target -/

/-- A campaign on the AND gate. -/
def andGateRun : Except Stopped (RunState × Terminal) :=
  runProgressiveNativeAtpg (smallCore andGate) { randomVectors := 0 } ["a", "b"] "" none
    (tableOf andGate (enumerateFaults andGate.ng andGate.cg))

/-- The report of a run with one stored reason. -/
def reasonReport (t : Terminal) : CoverageReport ℕ ℕ where
  faultCoveragePercent := some 100
  run := { vectorCount := some 3, atpgTerminalReason := storedReason t.text }
  undetectedFaults := []
  perNode := []

/-- It says so of that campaign, and rightly of one that stalls below its target. -/
theorem andGateRun_terminal :
    (buildOracleResponse (reasonReport
      (resultOf andGateRun (by decide +kernel)).2) none).terminalReason = "exhausted" ∧
    ∃ r, slowRun (fun _ => none) = .ok r ∧ r.2 = .stalled ∧ ¬ TargetReached slowConfig r.1.db ∧
      (buildOracleResponse (reasonReport r.2) none).terminalReason = "exhausted" := by
  refine ⟨(oracle_terminal_iff (smallCore andGate) { randomVectors := 0 } ["a", "b"] "" none _ _
    (eq_ok_resultOf andGateRun (by decide +kernel)) _ rfl none).1, ?_⟩
  have hrun := eq_ok_resultOf (slowRun fun _ => none) (by decide +kernel)
  have hstalled : (resultOf (slowRun fun _ => none) (by decide +kernel)).2 = .stalled := by
    decide +kernel
  obtain ⟨hexhausted, -, -, hmissed⟩ := oracle_terminal_iff _ slowConfig ["a", "b", "c"] "" none _ _
    hrun (reasonReport _) rfl none
  exact ⟨_, hrun, hstalled, hmissed (.inl hstalled), hexhausted⟩

/-- The campaign detects every fault, and the response says `exhausted`. -/
theorem andGateRun_exhausted : ∃ r, andGateRun = .ok r ∧
    TargetReached { randomVectors := 0 } r.1.db ∧
    (buildOracleResponse (reasonReport r.2) none).terminalReason ≠ "target_reached" :=
  ⟨_, eq_ok_resultOf andGateRun (by decide +kernel), by decide +kernel, by decide +kernel⟩

end Service

end FaultFlow
