/-
# When the progressive loop gives up

A run stalls when a round changed no verdict, all its outcomes were timeouts or
unknowns, and no active fault that timed out has a longer tier before it.  Then
every active fault was given to the solver with the longest limit, and came back
undecided (`runProgressiveNativeAtpg_stalled`), whatever preflight seeded.  That
rests on every wave bringing its results: when a wave raises, the calls that no
worker has begun are cancelled, and a fault whose turn comes while results of
others wait counts as unknown without a call (`slowRun_not_submitted`).
-/

import FaultFlow.Runner.Waves

namespace FaultFlow.Runner

open Lib
open Std (TreeMap TreeSet)

section Stalling

variable {core : Core} {cfg : AtpgConfig} {inputOrder : List String} {modelId : String}
  {preflight : Option PreflightData} {id : ℕ} {rest : List ℕ} {log : List SolverCall}

/-- The solver did not decide. -/
def SolverCall.Undecided (c : SolverCall) : Prop :=
  c.verdict.result = .TIMEOUT ∨ c.verdict.result = .UNKNOWN

/-- The longest limit of the schedule, which is increasing. -/
def longestTier (cfg : AtpgConfig) : ℕ := cfg.timeoutTiers.getD (cfg.timeoutTiers.length - 1) 0

/-- A round had an outcome other than a timeout or an unknown. -/
def RoundState.Progressed (rs : RoundState) : Prop :=
  ∃ o ∈ rs.outcomes, o ≠ .timeout ∧ o ≠ .unknown

/-- The last timeout of a fault was that of a call, at the tier it then had. -/
def Attempted (cfg : AtpgConfig) (log : List SolverCall) (s : RunState) (id : ℕ) : Prop :=
  ∃ n, s.priorTimeoutCount.getD id 0 = n + 1 ∧ ∃ c ∈ log, c.faultId = id ∧
    c.seconds = cfg.timeoutTiers.getD (min n (cfg.timeoutTiers.length - 1)) 0 ∧ c.Undecided

/-! ## Verdicts -/

theorem FaultRow.active_certify (modelId : String) (row : FaultRow) :
    (row.certify modelId).active = false := by
  unfold FaultRow.certify FaultRow.active FaultRow.open
  grind

variable {rs rs' : RoundState} {s s' : RunState} {index : ℕ}

/-- A candidate is progress, accepted or not. -/
theorem progressed_handleCandidate {v : PiMap}
    (h : handleCandidate core cfg inputOrder rs id v = .ok rs') : rs'.Progressed := by
  have hno : ∀ (rs₁ : RoundState) (key : String), (noProgress rs₁ id key).Progressed :=
    fun rs₁ key => ⟨.protocolNoProgress, by simp [noProgress], by simp⟩
  unfold handleCandidate at h
  dsimp only at h
  split at h
  · cases h
    exact hno _ _
  split at h
  · cases h
  split at h
  · obtain ⟨graded, -, h⟩ := bind_eq_ok.1 h
    cases h
    exact ⟨.sat, by simp, by simp⟩
  · cases h
    exact hno _ _

/-- **A verdict is progress, settles its fault, or counts as a timeout.** -/
theorem handleVerdict_cases {solved : Atpg.SolveOutcome PiMap}
    (h : handleVerdict core cfg inputOrder modelId rs id solved = .ok rs') :
    rs'.Progressed ∨ id ∉ rs'.db.activeIds ∨
      (solved.result = .TIMEOUT ∨ solved.result = .UNKNOWN) ∧
        rs'.priorTimeoutCount.getD id 0 = rs.priorTimeoutCount.getD id 0 + 1 := by
  unfold handleVerdict at h
  split at h
  · exact .inl (progressed_handleCandidate h)
  · cases h
    refine .inr (.inl fun hactive => ?_)
    obtain ⟨row, hrow, hactive⟩ := FaultTable.mem_activeIds.1 hactive
    simp only [FaultTable.markRedundant, FaultTable.getElem?_modify', if_true] at hrow
    obtain ⟨row', -, rfl⟩ := Option.map_eq_some_iff.1 hrow
    exact absurd hactive (by simp [FaultRow.active_certify])
  · rename_i hresult
    cases h
    exact .inr (.inr ⟨.inl hresult, by simp [RunState.countTimeout]⟩)
  · rename_i hresult
    cases h
    exact .inr (.inr ⟨.inr hresult, by simp [RunState.countTimeout]⟩)

/-! ## A round -/

/-- **The faults already visited** in a round are settled, or were attempted,
unless the round made progress. -/
structure PhaseInv (core : Core) (cfg : AtpgConfig) (log : List SolverCall) (rest : List ℕ)
    (rs : RoundState) : Prop where
  waves : WaveInv core cfg log rest rs
  distinct : rest.Nodup
  kept : ∀ id ∈ rs.db.activeIds, id ∈ rs.remaining
  visited : ∀ id ∈ rs.db.activeIds, id ∉ rest → rs.Progressed ∨ Attempted cfg log rs.toRunState id

theorem phaseInv_phaseStart (preflight : Option PreflightData) (s : RunState) :
    PhaseInv core cfg [] (phaseStart preflight s).undispatched (phaseStart preflight s) where
  waves := waveInv_phaseStart preflight s
  distinct := nodup_roundOrder preflight _
  kept id hid := by
    rw [phaseStart, TreeSet.mem_ofList, List.contains_iff_mem]
    exact mem_roundOrder.2 hid
  visited id hid hout := absurd (mem_roundOrder.2 hid) hout

theorem PhaseInv.processFault (hpool : ∀ call, core.poolFailure call ≠ some .otherException)
    (h : PhaseInv core cfg log (id :: rest) rs)
    (hturn : processFault core cfg inputOrder modelId rs id = .ok rs') :
    PhaseInv core cfg (log ++ processCalls core cfg rs id) rest rs' := by
  obtain ⟨hnew, hdistinct⟩ := List.nodup_cons.1 h.distinct
  have hmono : ∀ {s : RunState} {k : ℕ}, Attempted cfg log s k →
      Attempted cfg (log ++ processCalls core cfg rs id) s k := by
    rintro s k ⟨n, hn, c, hc, hcall⟩
    exact ⟨n, hn, c, List.mem_append_left _ hc, hcall⟩
  obtain ⟨hwaves, ⟨hskip, rfl⟩ | ⟨-, rs₁, call, hrs₁, hcall, hverdict⟩⟩ :=
    h.waves.processFault hpool hnew hturn
  · refine ⟨hwaves, hdistinct, h.kept, fun k hk hout => ?_⟩
    -- a skipped fault is not active
    have hne : k ≠ id := by
      rintro rfl
      rw [RoundState.wanted_iff.2 fun _ => h.kept k hk] at hskip
      cases hskip
    exact (h.visited k hk (by simp [hne, hout])).imp_right hmono
  · have ht := turnOf_handleVerdict hverdict
    obtain ⟨hdb, hremaining, hcounts, houtcomes⟩ := RoundState.eq_of_withoutWaves hrs₁
    have hback : ∀ k ∈ rs'.db.activeIds, k ∈ rs.db.activeIds ∧ k ∈ rs'.remaining := by
      intro k hk
      obtain ⟨row, hrow, hactive⟩ := FaultTable.mem_activeIds.1 hk
      obtain ⟨hrow, hrem⟩ := ht.active k row hrow hactive
      rw [hdb] at hrow
      have hold := FaultTable.mem_activeIds.2 ⟨row, hrow, hactive⟩
      exact ⟨hold, hrem (hremaining ▸ h.kept k hold)⟩
    refine ⟨hwaves, hdistinct, fun k hk => (hback k hk).2, fun k hk hout => ?_⟩
    by_cases hk' : k = id
    · subst hk'
      rcases handleVerdict_cases hverdict with hprog | hsettled | ⟨hundecided, hcount⟩
      · exact .inl hprog
      · exact absurd hk hsettled
      · rw [hcounts] at hcount
        exact .inr ⟨_, hcount, _, hcall, rfl, rfl, hundecided⟩
    · rcases h.visited k (hback k hk).1 (by simp [hk', hout]) with ⟨o, ho, hprog⟩ | hatt
      · exact .inl ⟨o, ht.outcomes.subset (houtcomes ▸ ho), hprog⟩
      · obtain ⟨n, hn, hcalls⟩ := hmono hatt
        exact .inr ⟨n, by rw [ht.timeouts k hk', hcounts]; exact hn, hcalls⟩

/-- **A round that stalls** submitted every fault it leaves active, at the longest tier. -/
theorem round_stalled (hpool : ∀ call, core.poolFailure call ≠ some .otherException)
    (h : round core cfg inputOrder modelId preflight s index = .ok (s', some .stalled))
    (hid : id ∈ s'.db.activeIds) :
    ∃ c ∈ roundCalls core cfg inputOrder modelId preflight s index, c.faultId = id ∧
      c.seconds = longestTier cfg ∧ c.Undecided := by
  unfold Runner.round at h
  dsimp only at h
  split at h
  · cases h
  rename_i hsome
  obtain ⟨s₁, hfill, h⟩ := bind_eq_ok.1 h
  split at h
  · cases h
  rename_i hrandom
  obtain ⟨rs, hphase, h⟩ := bind_eq_ok.1 h
  obtain ⟨hs', hend⟩ := Prod.mk.inj (Except.ok.inj h)
  subst hs'
  have hinv := foldlM_emitted (PhaseInv core cfg) (processCalls core cfg) hphase
    (phaseInv_phaseStart preflight s₁) fun _ _ _ _ _ hc hturn => hc.processFault hpool hturn
  rw [roundCalls, if_neg hsome, hfill]
  dsimp only
  rw [if_neg hrandom]
  unfold roundEnd at hend
  split at hend
  · cases hend
  split at hend
  · cases hend
  split at hend
  · rename_i hstall
    rw [Bool.and_eq_true, Bool.not_eq_true'] at hstall
    obtain ⟨hstall, hroom⟩ := hstall
    rcases hinv.visited id hid List.not_mem_nil with ⟨o, ho, hne⟩ | ⟨n, hn, c, hc, hcid, hsec, hund⟩
    · rw [shouldStall, Bool.and_eq_true, List.all_eq_true] at hstall
      have := hstall.2 o ho
      simp [hne.1, hne.2] at this
    · refine ⟨c, hc, hcid, ?_, hund⟩
      -- no headroom: the tier of the last call was the last one
      have hlast : ¬ n + 1 < cfg.timeoutTiers.length := by
        intro hlt
        rw [escalationHeadroom, List.any_eq_false] at hroom
        exact hroom id hid (by simp [hn, hlt])
      rw [hsec, longestTier, Nat.min_eq_right (by omega)]
  · cases hend

/-- The round that ends a run. -/
theorem exists_last_round {n : ℕ} {t : Terminal} (ht : t ≠ .maxRounds)
    (h : rounds core cfg inputOrder modelId preflight n index s = .ok (s', t)) :
    ∃ (s₁ : RunState) (index₁ : ℕ),
      round core cfg inputOrder modelId preflight s₁ index₁ = .ok (s', some t) ∧
      ∀ c ∈ roundCalls core cfg inputOrder modelId preflight s₁ index₁,
        c ∈ roundsCalls core cfg inputOrder modelId preflight n index s := by
  induction n generalizing index s with
  | zero =>
    cases h
    exact absurd rfl ht
  | succ n ih =>
    rw [rounds] at h
    obtain ⟨⟨s₁, ended⟩, hround, h⟩ := bind_eq_ok.1 h
    cases ended with
    | some t' =>
      cases h
      exact ⟨s, index, hround, fun c hc => List.mem_append_left _ hc⟩
    | none =>
      obtain ⟨s₂, index₂, hround₂, hcalls⟩ := ih h
      refine ⟨s₂, index₂, hround₂, fun c hc => ?_⟩
      rw [roundsCalls, hround]
      exact List.mem_append_right _ (hcalls c hc)

end Stalling

/-- **A run that stalls has tried everything**: each fault it leaves active was
given to the solver with the longest limit and came back undecided, when no wave
raised an exception other than the end of the pool. -/
theorem runProgressiveNativeAtpg_stalled (core : Core) (cfg : AtpgConfig) (inputOrder : List String)
    (modelId : String) (preflight : Option PreflightData) (db : FaultTable)
    (r : RunState × Terminal) (hpool : ∀ call, core.poolFailure call ≠ some .otherException)
    (hrun : runProgressiveNativeAtpg core cfg inputOrder modelId preflight db = .ok r)
    (hstalled : r.2 = .stalled) (id : ℕ) (hid : id ∈ r.1.db.activeIds) :
    ∃ c ∈ solverCalls core cfg inputOrder modelId preflight db, c.faultId = id ∧
      c.seconds = longestTier cfg ∧ c.Undecided := by
  obtain ⟨s', t⟩ := r
  subst hstalled
  unfold runProgressiveNativeAtpg at hrun
  split at hrun
  · cases hrun
  rename_i hmax
  split at hrun
  · cases hrun
  rename_i htarget
  obtain ⟨r', hrounds, hrun⟩ := bind_eq_ok.1 hrun
  split at hrun
  · cases hrun
  obtain rfl := Except.ok.inj hrun
  obtain ⟨s₁, index, hround, hcalls⟩ := exists_last_round (by simp) hrounds
  obtain ⟨c, hc, hcall⟩ := round_stalled hpool hround hid
  rw [solverCalls, if_neg (not_or.2 ⟨hmax, htarget⟩)]
  exact ⟨c, hcalls c hc, hcall⟩

/-- A gate, and an input that is an output. -/
def gateAndWire : CachedGraph :=
  .load (.ofCells [("a", 2), ("b", 3), ("c", 5)] [("y", 4), ("z", 5)]
      [("g", .ofPins "AND2" [("A", 2), ("B", 3), ("Y", 4)])])
    smallCells "fail" ∅ (by decide +kernel) (by decide +kernel)

/-- Its faults; the last two, on the wire, have the smallest cones. -/
def gateAndWireTable : FaultTable :=
  tableOf gateAndWire (enumerateFaults gateAndWire.ng gateAndWire.cg)

/-- A solver that always runs out of time, under a pool that may raise. -/
def slowCore (poolFailure : ℕ → Option PoolFailure) : Core :=
  { smallCore gateAndWire with
    solve := fun _ _ _ _ => .ok { result := .TIMEOUT, out := none }
    poolFailure
    pending := fun call => call = 7 }

/-- Two workers and one tier of ten seconds. -/
def slowConfig : AtpgConfig := { randomVectors := 0, workers := 2, timeoutTiers := [10] }

/-- A run of them. -/
def slowRun (poolFailure : ℕ → Option PoolFailure) : Except Stopped (RunState × Terminal) :=
  runProgressiveNativeAtpg (slowCore poolFailure) slowConfig ["a", "b", "c"] "" none gateAndWireTable

/-- The calls of that run. -/
def slowCalls (poolFailure : ℕ → Option PoolFailure) : List SolverCall :=
  solverCalls (slowCore poolFailure) slowConfig ["a", "b", "c"] "" none gateAndWireTable

/-- Without exceptions the slow solver is asked for every fault. -/
theorem slowRun_submitted : ∃ r, slowRun (fun _ => none) = .ok r ∧ r.2 = .stalled ∧
    6 ∈ r.1.db.activeIds ∧
    ∃ c ∈ slowCalls fun _ => none, c.faultId = 6 ∧ c.seconds = 10 ∧ c.Undecided := by
  have hrun := eq_ok_resultOf (slowRun fun _ => none) (by decide +kernel)
  have hstalled : (resultOf (slowRun fun _ => none) (by decide +kernel)).2 = .stalled := by
    decide +kernel
  have hactive : 6 ∈ (resultOf (slowRun fun _ => none) (by decide +kernel)).1.db.activeIds := by
    decide +kernel
  exact ⟨_, hrun, hstalled, hactive, runProgressiveNativeAtpg_stalled (slowCore fun _ => none)
    slowConfig ["a", "b", "c"] "" none gateAndWireTable _ (fun _ => by simp [slowCore]) hrun hstalled
    6 hactive⟩

/-- **A run can stall on a fault the solver was never asked about.**  The wave is
submitted by cone size, the wire's two faults first and fault `6` last.  The
second result raises while two calls run and three are in the queue of the
workers, so the eighth call is still pending, and it is cancelled.  At the turn of
fault `6` the first result, for the wire, still waits, so the fault counts as
unknown, and a single tier leaves no headroom. -/
theorem slowRun_not_submitted :
    let poolFailure := fun call => if call = 1 then some .otherException else none
    ∃ r, slowRun poolFailure = .ok r ∧ r.2 = .stalled ∧ 6 ∈ r.1.db.activeIds ∧
      ∀ c ∈ slowCalls poolFailure, c.faultId ≠ 6 := by
  refine ⟨_, eq_ok_resultOf _ (by decide +kernel), by decide +kernel, by decide +kernel, ?_⟩
  have hall : ((slowCalls fun call => if call = 1 then some .otherException else none).all
    fun c => c.faultId != 6) = true := by decide +kernel
  simpa using hall

end FaultFlow.Runner
