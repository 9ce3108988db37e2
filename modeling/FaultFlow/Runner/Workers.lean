/-
# Workers make no difference

The progressive loop with workers against the loop with one: the same vectors in
the same order, the same table and the same terminal reason, when a call's answer
depends on its arguments only and no worker raises
(`runNativeCampaign_workers`).  Turn by turn the two are in states that differ in
what is solved ahead (`Mirror`), and what is ahead is what a call at its turn
gives (`Runner.Waves`).  Before the workers are forked, however, the graph cache
is warmed without the list of blackboxes: a netlist that loads only with that
list is refused as soon as there are two workers (`boxedMemory_workers`).
-/

import FaultFlow.Runner.Waves

namespace FaultFlow.Runner

open Lib
open Std (TreeMap TreeSet)

/-! ## The campaign -/

/-- A configuration with another number of workers. -/
def AtpgConfig.withWorkers (cfg : AtpgConfig) (w : ℕ) : AtpgConfig := { cfg with workers := w }

@[simp] theorem AtpgConfig.faultDropSat_withWorkers (cfg : AtpgConfig) (w : ℕ) :
    (cfg.withWorkers w).faultDropSat = cfg.faultDropSat := rfl

/-- The call of `compute_fault_cone_sizes` before the workers are forked: the
netlist is loaded without blackboxes. -/
def warmGraphCache (parsed : ParsedModule) (cellMap : CellMap) (policy : String) :
    Except FlowError Unit := do
  let ng ← NormalizedGraph.fromParsed parsed cellMap policy ∅
  let _ ← GraphCompiler.compile ng
  return ()

/-- `run_progressive_native_atpg` on a netlist: the loop, behind the warming of the
graph cache when there are workers. -/
def runNativeCampaign (parsed : ParsedModule) (cellMap : CellMap) (policy : String) (core : Core)
    (cfg : AtpgConfig) (inputOrder : List String) (modelId : String)
    (preflight : Option PreflightData) (db : FaultTable) : Except Stopped (RunState × Terminal) :=
  -- the arguments are checked before anything is loaded
  if 1 < cfg.workers ∧ ¬ cfg.maxRounds < 1 ∧ 0 < cfg.targetCoverage ∧ cfg.targetCoverage ≤ 100 then
    match warmGraphCache parsed cellMap policy with
    | .error e => .error { reason := .core e, db := db.invalidateStaleRedundant modelId }
    | .ok () => runProgressiveNativeAtpg core cfg inputOrder modelId preflight db
  else runProgressiveNativeAtpg core cfg inputOrder modelId preflight db

/-- What a run leaves behind: the vectors, the table and the terminal reason. -/
def resultsOf (run : Except Stopped (RunState × Terminal)) :
    Except Stopped (List PiMap × FaultTable × Terminal) :=
  run.map fun r => (r.1.vectors, r.1.db, r.2)

/-! ## One fault -/

/-- A run state but for the number of calls. -/
def RunState.uncounted (s : RunState) : RunState := { s with calls := 0 }

section Mirror

variable {core : Core} {cfg : AtpgConfig} {inputOrder : List String} {modelId : String}
  {preflight : Option PreflightData} {id w : ℕ} {rest : List ℕ} {log : List SolverCall}
  {rs rs' : RoundState} {s s' : RunState}

/-- The same state, with other things solved ahead. -/
theorem RoundState.exists_waves (h : rs'.withoutWaves = rs.withoutWaves) :
    ∃ calls results undispatched, rs' = { rs with
      calls := calls, parallelResults := results, undispatched := undispatched } := by
  refine ⟨rs'.calls, rs'.parallelResults, rs'.undispatched, ?_⟩
  simp only [RoundState.withoutWaves, RoundState.mk.injEq, RunState.mk.injEq] at h
  obtain ⟨⟨db, vectors, seenPatterns, rejectedPatterns, priorTimeoutCount, calls, stats⟩, remaining,
    parallelResults, undispatched, outcomes⟩ := rs'
  simp_all

theorem acceptCandidate_alike (h : rs'.withoutWaves = rs.withoutWaves) (w w' id : ℕ) (key : String)
    (v : PiMap) : Alike (fun a b : RoundState => b.withoutWaves = a.withoutWaves)
      (acceptCandidate core (cfg.withWorkers w) rs id key v)
      (acceptCandidate core (cfg.withWorkers w') rs' id key v) := by
  obtain ⟨calls, results, undispatched, rfl⟩ := RoundState.exists_waves h
  unfold acceptCandidate
  simp only [AtpgConfig.faultDropSat_withWorkers]
  exact Alike.bind (R := (· = ·)) (Alike.refl _) fun graded _ heq => heq ▸ rfl

theorem handleCandidate_alike (h : rs'.withoutWaves = rs.withoutWaves) (w w' id : ℕ) (v : PiMap) :
    Alike (fun a b : RoundState => b.withoutWaves = a.withoutWaves)
      (handleCandidate core (cfg.withWorkers w) inputOrder rs id v)
      (handleCandidate core (cfg.withWorkers w') inputOrder rs' id v) := by
  obtain ⟨calls, results, undispatched, rfl⟩ := RoundState.exists_waves h
  unfold handleCandidate
  dsimp only
  split
  · rfl
  · split
    · rfl
    · split
      · refine acceptCandidate_alike ?_ w w' id _ v
        rfl
      · rfl

/-- What a verdict does does not depend on the workers, or on what is solved ahead. -/
theorem handleVerdict_alike (h : rs'.withoutWaves = rs.withoutWaves) (w w' id : ℕ)
    (solved : Atpg.SolveOutcome PiMap) :
    Alike (fun a b : RoundState => b.withoutWaves = a.withoutWaves)
      (handleVerdict core (cfg.withWorkers w) inputOrder modelId rs id solved)
      (handleVerdict core (cfg.withWorkers w') inputOrder modelId rs' id solved) := by
  unfold handleVerdict
  split
  · exact handleCandidate_alike h w w' id _
  all_goals
    obtain ⟨calls, results, undispatched, rfl⟩ := RoundState.exists_waves h
    rfl

/-- **Two loops side by side**: the one with workers has some faults solved ahead. -/
structure Mirror (core : Core) (cfg : AtpgConfig) (w : ℕ) (log : List SolverCall) (rest : List ℕ)
    (rs rs' : RoundState) : Prop where
  waves : WaveInv core (cfg.withWorkers w) log rest rs
  distinct : rest.Nodup
  same : rs'.withoutWaves = rs.withoutWaves
  serial : rs'.parallelResults.isEmpty = true

variable (hdet : ∀ call call' seconds f blocked,
  core.solve call seconds f blocked = core.solve call' seconds f blocked)

include hdet

theorem solveFaultForDb_call (db : FaultTable) (call call' seconds id : ℕ) (blocked : List String) :
    solveFaultForDb core db call seconds id blocked =
      solveFaultForDb core db call' seconds id blocked := by
  unfold solveFaultForDb
  simp only [hdet call call']

/-- **A turn of the one is a turn of the other.** -/
theorem Mirror.processFault {rs rs' : RoundState} (hpool : ∀ call, core.poolFailure call = none)
    (hok : ∀ c ∈ log ++ processCalls core (cfg.withWorkers w) rs id,
      ∃ solved, c.answer = .ok solved)
    (h : Mirror core cfg w log (id :: rest) rs rs') :
    Alike (Mirror core cfg w (log ++ processCalls core (cfg.withWorkers w) rs id) rest)
      (processFault core (cfg.withWorkers w) inputOrder modelId rs id)
      (processFault core (cfg.withWorkers 1) inputOrder modelId rs' id) := by
  obtain ⟨hnew, hdistinct⟩ := List.nodup_cons.1 h.distinct
  have hwanted : rs'.wanted (cfg.withWorkers 1) id = rs.wanted (cfg.withWorkers w) id :=
    congrFun (RoundState.wanted_eq h.same) id
  rw [processFault_eq, processFault_eq, hwanted]
  split
  · rename_i hwant
    obtain ⟨rs₁, hwave⟩ : ∃ rs₁, ensureWave core (cfg.withWorkers w) rs id = .ok rs₁ := by
      unfold ensureWave
      split
      · exact exists_fetchResults hpool _ _ _
      · exact ⟨rs, rfl⟩
    have hcalls : processCalls core (cfg.withWorkers w) rs id =
        waveCalls core (cfg.withWorkers w) rs id ++
          turnCalls core (cfg.withWorkers w) rs₁ id := by
      rw [processCalls, if_pos hwant, hwave]
    obtain ⟨solved, rs₂, hverdict⟩ : ∃ solved rs₂,
        verdictFor core (cfg.withWorkers w) rs₁ id = .ok (solved, rs₂) := by
      unfold verdictFor
      split
      · rename_i hempty
        obtain ⟨solved, hsolved⟩ := hok (rs₁.solverCall core (cfg.withWorkers w) rs₁.calls id)
          (by simp [hcalls, turnCalls, hempty])
        exact ⟨solved, _, by rw [show solveFaultForDb _ _ _ _ _ _ = _ from hsolved]; rfl⟩
      · exact ⟨_, _, rfl⟩
    obtain ⟨hwaves, hsame, call, hcall, hsolved⟩ :=
      h.waves.solved (by simp [hpool]) hnew hwant hwave hverdict
    -- the serial loop makes that call now
    have hserial : verdictFor core (cfg.withWorkers 1) rs' id =
        .ok (solved, { rs' with calls := rs'.calls + 1 }) := by
      obtain ⟨solved', hsolved'⟩ := hok _ hcall
      have hanswer : (rs'.solverCall core (cfg.withWorkers 1) rs'.calls id).answer =
          .ok solved' := by
        rw [RoundState.solverCall_eq h.same, ← hsolved']
        exact solveFaultForDb_call hdet _ _ _ _ _ _
      rw [SolverCall.verdict, hsolved'] at hsolved
      subst hsolved
      rw [verdictFor, if_pos h.serial, show solveFaultForDb _ _ _ _ _ _ = _ from hanswer]
      rfl
    have hskip : ensureWave core (cfg.withWorkers 1) rs' id = .ok rs' := by
      simp [ensureWave, AtpgConfig.withWorkers]
    rw [hwave, hskip]
    show Alike _ (verdictFor _ _ _ _ >>= _) (verdictFor _ _ _ _ >>= _)
    rw [hverdict, hserial]
    have hnext : { rs' with calls := rs'.calls + 1 }.withoutWaves = rs₂.withoutWaves :=
      h.same.trans hsame.symm
    refine (handleVerdict_alike hnext w 1 id solved).imp fun a b ha hb hab => ?_
    refine ⟨hwaves.turnOf hnew (turnOf_handleVerdict ha), hdistinct, hab, ?_⟩
    rw [(turnOf_handleVerdict hb).results]
    exact h.serial
  · rename_i hskip
    have hskip : rs.wanted (cfg.withWorkers w) id = false := by simpa using hskip
    exact ⟨(h.waves.skip hskip).mono _, hdistinct, h.same, h.serial⟩

/-! ## Rounds -/

omit hdet in
theorem RunState.exists_calls (h : s'.uncounted = s.uncounted) :
    ∃ calls, s' = { s with calls := calls } := by
  refine ⟨s'.calls, ?_⟩
  simp only [RunState.uncounted, RunState.mk.injEq] at h
  obtain ⟨db, vectors, seenPatterns, rejectedPatterns, priorTimeoutCount, calls, stats⟩ := s'
  simp_all

omit hdet in
theorem gradeRandom_workers (ids : List ℕ) (denominator : ℕ) (db : FaultTable) (vs : List PiMap) :
    gradeRandom core (cfg.withWorkers w) ids denominator db vs =
      gradeRandom core cfg ids denominator db vs := by
  induction vs generalizing db with
  | nil => rfl
  | cons v vs ih =>
    simp only [gradeRandom, ih]
    rfl

omit hdet in
/-- The random phase makes no calls of the solver. -/
theorem fillPhase_alike (h : s'.uncounted = s.uncounted) (w w' index : ℕ) :
    Alike (fun a b : RunState => b.uncounted = a.uncounted)
      (fillPhase core (cfg.withWorkers w) inputOrder s index)
      (fillPhase core (cfg.withWorkers w') inputOrder s' index) := by
  obtain ⟨calls, rfl⟩ := RunState.exists_calls h
  unfold fillPhase
  split
  · unfold randomPhase
    dsimp only
    rw [gradeRandom_workers, gradeRandom_workers]
    exact Alike.bind (R := (· = ·)) (Alike.refl _) fun graded _ heq => heq ▸ rfl
  · rfl

/-- The solving phase of a round. -/
theorem satPhase_alike (hpool : ∀ call, core.poolFailure call = none) {s s' : RunState}
    (h : s'.uncounted = s.uncounted)
    (hok : ∀ c ∈ emitted (processFault core (cfg.withWorkers w) inputOrder modelId)
      (processCalls core (cfg.withWorkers w)) (phaseStart preflight s)
      (phaseStart preflight s).undispatched, ∃ solved, c.answer = .ok solved) :
    Alike (fun a b : RoundState => b.withoutWaves = a.withoutWaves)
      (satPhase core (cfg.withWorkers w) inputOrder modelId preflight s)
      (satPhase core (cfg.withWorkers 1) inputOrder modelId preflight s') := by
  obtain ⟨calls, rfl⟩ := RunState.exists_calls h
  refine (Alike.foldlM (Mirror core cfg w) (processCalls core (cfg.withWorkers w)) _
    hok (?_ : Mirror core cfg w [] (phaseStart preflight s).undispatched (phaseStart preflight s)
      (phaseStart preflight { s with calls := calls }))
    fun log id rest rs rs' hlog hR => hR.processFault hdet hpool hlog).imp ?_
  · exact ⟨waveInv_phaseStart preflight s, nodup_roundOrder preflight _, rfl, rfl⟩
  · rintro rs rs' - - ⟨log, hR⟩
    exact hR.same

theorem round_alike (hpool : ∀ call, core.poolFailure call = none) {s s' : RunState}
    (h : s'.uncounted = s.uncounted) (index : ℕ)
    (hok : ∀ c ∈ roundCalls core (cfg.withWorkers w) inputOrder modelId preflight s index,
      ∃ solved, c.answer = .ok solved) :
    Alike (fun a b : RunState × Option Terminal => b.1.uncounted = a.1.uncounted ∧ b.2 = a.2)
      (round core (cfg.withWorkers w) inputOrder modelId preflight s index)
      (round core (cfg.withWorkers 1) inputOrder modelId preflight s' index) := by
  obtain ⟨calls, rfl⟩ := RunState.exists_calls h
  unfold round
  unfold roundCalls at hok
  dsimp only
  split
  · exact ⟨rfl, rfl⟩
  rename_i hsome
  rw [if_neg hsome] at hok
  have hs : { s with calls := calls, stats := { s.stats with rounds := index } }.uncounted =
      { s with stats := { s.stats with rounds := index } }.uncounted := rfl
  refine Alike.bind ((fillPhase_alike hs w 1 index).imp (S := fun a b => b.uncounted = a.uncounted ∧
    fillPhase core (cfg.withWorkers w) inputOrder
      { s with stats := { s.stats with rounds := index } } index = .ok a)
    fun a b ha _ hab => ⟨hab, ha⟩) ?_
  rintro s₁ s₁' ⟨hs₁, hfill⟩
  rw [hfill] at hok
  dsimp only at hok
  have hrandom : (cfg.withWorkers w).randomOnly = (cfg.withWorkers 1).randomOnly := rfl
  rw [hrandom] at hok ⊢
  split
  · exact ⟨hs₁, rfl⟩
  · rename_i hmore
    rw [if_neg hmore] at hok
    refine Alike.bind (satPhase_alike hdet hpool hs₁ hok) fun rs rs' hrs => ?_
    obtain ⟨calls', results, undispatched, rfl⟩ := RoundState.exists_waves hrs
    exact ⟨rfl, rfl⟩

/-- The rounds of the two runs. -/
theorem rounds_alike (hpool : ∀ call, core.poolFailure call = none) (n index : ℕ) {s s' : RunState}
    (h : s'.uncounted = s.uncounted)
    (hok : ∀ c ∈ roundsCalls core (cfg.withWorkers w) inputOrder modelId preflight n index s,
      ∃ solved, c.answer = .ok solved) :
    Alike (fun a b : RunState × Terminal => b.1.uncounted = a.1.uncounted ∧ b.2 = a.2)
      (rounds core (cfg.withWorkers w) inputOrder modelId preflight n index s)
      (rounds core (cfg.withWorkers 1) inputOrder modelId preflight n index s') := by
  induction n generalizing index s s' with
  | zero => exact ⟨h, rfl⟩
  | succ n ih =>
    rw [roundsCalls] at hok
    rw [rounds, rounds]
    have hround := round_alike hdet hpool h index fun c hc => hok c (List.mem_append_left _ hc)
    refine Alike.bind (hround.imp (S := fun a b => (b.1.uncounted = a.1.uncounted ∧ b.2 = a.2) ∧
      round core (cfg.withWorkers w) inputOrder modelId preflight s index = .ok a)
      fun a b ha _ hab => ⟨hab, ha⟩) ?_
    rintro ⟨s₁, ended⟩ ⟨s₁', ended'⟩ ⟨⟨hs₁, hended⟩, heq⟩
    obtain rfl : ended' = ended := hended
    cases ended' with
    | some t => exact ⟨hs₁, rfl⟩
    | none =>
      refine ih (index + 1) hs₁ fun c hc => hok c (List.mem_append_right _ ?_)
      rw [heq]
      exact hc

theorem runProgressiveNativeAtpg_alike (hpool : ∀ call, core.poolFailure call = none)
    (db : FaultTable)
    (hok : ∀ c ∈ solverCalls core (cfg.withWorkers w) inputOrder modelId preflight db,
      ∃ solved, c.answer = .ok solved) :
    Alike (fun a b : RunState × Terminal => b.1.uncounted = a.1.uncounted ∧ b.2 = a.2)
      (runProgressiveNativeAtpg core (cfg.withWorkers w) inputOrder modelId preflight db)
      (runProgressiveNativeAtpg core (cfg.withWorkers 1) inputOrder modelId preflight db) := by
  unfold runProgressiveNativeAtpg
  unfold solverCalls at hok
  have hmax : ∀ w, (cfg.withWorkers w).maxRounds = cfg.maxRounds := fun _ => rfl
  have htarget : ∀ w, (cfg.withWorkers w).targetCoverage = cfg.targetCoverage := fun _ => rfl
  simp only [hmax, htarget] at hok ⊢
  split
  · rfl
  rename_i hvalid
  split
  · rfl
  rename_i hrange
  rw [if_neg (not_or.2 ⟨hvalid, hrange⟩)] at hok
  refine Alike.bind (rounds_alike hdet hpool cfg.maxRounds 1 rfl hok) ?_
  rintro ⟨s, t⟩ ⟨s', t'⟩ ⟨hs, ht⟩
  obtain ⟨calls, rfl⟩ := RunState.exists_calls hs
  obtain rfl : t' = t := ht
  dsimp only
  split
  · rfl
  · exact ⟨rfl, rfl⟩

end Mirror

/-- **Workers make no difference**, when answers depend on what a call is given,
no worker and no pool raises, and the netlist loads without its blackboxes: the
same vectors in the same order, the same table and the same terminal reason as
with one worker. -/
theorem runNativeCampaign_workers (parsed : ParsedModule) (cellMap : CellMap) (policy : String)
    (core : Core) (cfg : AtpgConfig) (inputOrder : List String) (modelId : String)
    (preflight : Option PreflightData) (db : FaultTable) (w : ℕ)
    (hdet : ∀ call call' seconds f blocked,
      core.solve call seconds f blocked = core.solve call' seconds f blocked)
    (hpool : ∀ call, core.poolFailure call = none)
    (hok : ∀ c ∈ solverCalls core (cfg.withWorkers w) inputOrder modelId preflight db,
      ∃ solved, c.answer = .ok solved)
    (hwarm : 1 < w → warmGraphCache parsed cellMap policy = .ok ()) :
    resultsOf (runNativeCampaign parsed cellMap policy core (cfg.withWorkers w) inputOrder modelId
        preflight db) =
      resultsOf (runNativeCampaign parsed cellMap policy core (cfg.withWorkers 1) inputOrder modelId
        preflight db) := by
  have hleft : runNativeCampaign parsed cellMap policy core (cfg.withWorkers w) inputOrder modelId
      preflight db = runProgressiveNativeAtpg core (cfg.withWorkers w) inputOrder modelId preflight
        db := by
    unfold runNativeCampaign
    split
    · rename_i hmany
      rw [hwarm hmany.1]
    · rfl
  have hright : runNativeCampaign parsed cellMap policy core (cfg.withWorkers 1) inputOrder modelId
      preflight db = runProgressiveNativeAtpg core (cfg.withWorkers 1) inputOrder modelId preflight
        db := by
    rw [runNativeCampaign, if_neg (by simp [AtpgConfig.withWorkers])]
  rw [hleft, hright]
  have halike := runProgressiveNativeAtpg_alike hdet hpool db hok
  cases hw : runProgressiveNativeAtpg core (cfg.withWorkers w) inputOrder modelId preflight db <;>
    cases h1 : runProgressiveNativeAtpg core (cfg.withWorkers 1) inputOrder modelId preflight db <;>
    rw [hw, h1] at halike
  · exact congrArg (fun e => resultsOf (.error e)) halike
  · exact halike.elim
  · exact halike.elim
  · rename_i r r'
    obtain ⟨hs, ht⟩ := halike
    obtain ⟨calls, hcalls⟩ := RunState.exists_calls hs
    simp [resultsOf, Except.map, hcalls, ht]

/-- A campaign on a small netlist, without random vectors. -/
def smallCampaign (g : CachedGraph) (w : ℕ) : Except Stopped (RunState × Terminal) :=
  runNativeCampaign g.parsed g.cellMap g.unsupportedPolicy (smallCore g)
    (AtpgConfig.withWorkers { randomVectors := 0 } w) ["a", "b"] "" none
    (tableOf g (enumerateFaults g.ng g.cg))

/-- No call that it makes with some workers raises. -/
def smallCampaignSolves (g : CachedGraph) (w : ℕ) : Bool :=
  (solverCalls (smallCore g) (AtpgConfig.withWorkers { randomVectors := 0 } w) ["a", "b"] "" none
    (tableOf g (enumerateFaults g.ng g.cg))).all fun c => c.answer.isOk

/-- Three workers on the AND gate. -/
theorem andGate_workers :
    resultsOf (smallCampaign andGate 3) = resultsOf (smallCampaign andGate 1) := by
  have hall : smallCampaignSolves andGate 3 = true := by decide +kernel
  refine runNativeCampaign_workers _ _ _ (smallCore andGate) { randomVectors := 0 } ["a", "b"] ""
    none (tableOf andGate (enumerateFaults andGate.ng andGate.cg)) 3 (fun _ _ _ _ _ => rfl)
    (fun _ => rfl) (fun c hc => ?_) fun _ => eq_ok_resultOf _ (by decide +kernel)
  exact ⟨_, eq_ok_resultOf _ (List.all_eq_true.1 hall c hc)⟩

/-- A memory that the cell library does not know, blackboxed, before a gate. -/
def boxedMemory : CachedGraph :=
  .load (.ofCells [("a", 2), ("b", 3)] [("y", 5)]
      [("m", .ofPins "RAM" [("A", 2), ("Y", 4)]),
       ("g", .ofPins "AND2" [("A", 4), ("B", 3), ("Y", 5)])])
    smallCells "fail" (.ofList ["m"]) (by decide +kernel) (by decide +kernel)

/-- **With two workers a netlist with a blackbox is refused**, which one worker
takes to the end: the cache is warmed as if there were no blackbox. -/
theorem boxedMemory_workers :
    smallCampaignSolves boxedMemory 2 = true ∧
    (smallCampaign boxedMemory 1).isOk = true ∧
    smallCampaign boxedMemory 2 = .error
      { reason := .core (.UnsupportedCellError "RAM")
        db := (tableOf boxedMemory (enumerateFaults boxedMemory.ng
          boxedMemory.cg)).invalidateStaleRedundant "" } := by
  refine ⟨by decide +kernel, by decide +kernel, ?_⟩
  have hwarm : warmGraphCache boxedMemory.parsed boxedMemory.cellMap
      boxedMemory.unsupportedPolicy = .error (.UnsupportedCellError "RAM") := by
    decide +kernel
  rw [smallCampaign, runNativeCampaign, if_pos (by decide +kernel), hwarm]

end FaultFlow.Runner
