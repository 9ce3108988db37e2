/-
# Waves of solver calls

With several workers the progressive loop solves faults ahead of their turn, a
wave at a time, against the blocked patterns and the time limits that stand when
the wave is made.  A fault's patterns and limit change at its own turn only, so a
result that is waiting is the one a call at that turn would give (`WaveInv`), and
a fault whose turn comes has a result unless the pool failed
(`WaveInv.ensureWave`).  The calls a run makes are listed by `solverCalls`.
-/

import FaultFlow.Runner.Redundancy

namespace FaultFlow.Runner

open Lib
open Std (TreeMap TreeSet)

/-! ## The calls of a run -/

/-- A call of the solver: what it was given, and what came back. -/
structure SolverCall where
  faultId : ℕ
  seconds : ℕ
  blocked : List String
  answer : Except RunnerError (Atpg.SolveOutcome PiMap)

/-- The verdict of a call; an exception is an unknown. -/
def SolverCall.verdict (c : SolverCall) : Atpg.SolveOutcome PiMap :=
  match c.answer with
  | .ok solved => solved
  | .error _ => { result := .UNKNOWN, out := none }

variable (core : Core) (cfg : AtpgConfig)

/-- The call a state makes for a fault, as the call number `call`. -/
def RunState.solverCall (s : RunState) (call id : ℕ) : SolverCall where
  faultId := id
  seconds := s.tierTimeout cfg id
  blocked := s.blocked id
  answer := solveFaultForDb core s.db call (s.tierTimeout cfg id) id (s.blocked id)

/-- The calls of `collectWave`: all that were submitted, but for those still pending when an
earlier result raised, which are cancelled. -/
def collectCalls (core : Core) (cfg : AtpgConfig) (s : RunState) : ℕ → List ℕ → List SolverCall
  | _, [] => []
  | call, id :: ids =>
    s.solverCall core cfg call id :: match core.poolFailure call with
      | none => collectCalls core cfg s (call + 1) ids
      | some _ => ((ids.zipIdx (call + 1)).filter fun p => !core.pending p.2).map fun p =>
          s.solverCall core cfg p.2 p.1

/-- There are workers. -/
def parallel : Bool := 1 < cfg.workers && core.canFork

/-- A fault that the loop does not skip. -/
def RoundState.wanted (rs : RoundState) (id : ℕ) : Bool :=
  !cfg.faultDropSat || rs.remaining.contains id

/-- The calls of `ensureWave`. -/
def waveCalls (rs : RoundState) (id : ℕ) : List SolverCall :=
  if parallel core cfg && !rs.parallelResults.contains id then
    collectCalls core cfg rs.toRunState rs.calls
      (dispatchOrder core cfg rs.db (takeWave (rs.wanted cfg) (waveSize cfg) rs.undispatched).1)
  else []

/-- The calls of `verdictFor`. -/
def turnCalls (rs : RoundState) (id : ℕ) : List SolverCall :=
  if rs.parallelResults.isEmpty then [rs.solverCall core cfg rs.calls id] else []

/-- The calls of `processFault`. -/
def processCalls (rs : RoundState) (id : ℕ) : List SolverCall :=
  if rs.wanted cfg id then
    waveCalls core cfg rs id ++ match ensureWave core cfg rs id with
      | .ok rs => turnCalls core cfg rs id
      | .error _ => []
  else []

/-- The state in which the solving phase of a round begins. -/
def phaseStart (preflight : Option PreflightData) (s : RunState) : RoundState :=
  { seedTimeouts preflight s with
    remaining := TreeSet.ofList (roundOrder preflight (seedTimeouts preflight s).db)
    undispatched := roundOrder preflight (seedTimeouts preflight s).db }

/-- The calls of a round. -/
def roundCalls (inputOrder : List String) (modelId : String) (preflight : Option PreflightData)
    (s : RunState) (index : ℕ) : List SolverCall :=
  if s.db.activeIds.isEmpty then []
  else match fillPhase core cfg inputOrder { s with stats := { s.stats with rounds := index } } index with
    | .error _ => []
    | .ok s =>
      if index = 1 && cfg.randomOnly then []
      else emitted (processFault core cfg inputOrder modelId) (processCalls core cfg)
        (phaseStart preflight s) (phaseStart preflight s).undispatched

/-- The calls of the rounds `index`, `index + 1`, … -/
def roundsCalls (core : Core) (cfg : AtpgConfig) (inputOrder : List String) (modelId : String)
    (preflight : Option PreflightData) : ℕ → ℕ → RunState → List SolverCall
  | 0, _, _ => []
  | n + 1, index, s =>
    roundCalls core cfg inputOrder modelId preflight s index ++
      match round core cfg inputOrder modelId preflight s index with
      | .ok (s, none) => roundsCalls core cfg inputOrder modelId preflight n (index + 1) s
      | _ => []

/-- **The calls of the solver in a run**, in order. -/
def solverCalls (inputOrder : List String) (modelId : String) (preflight : Option PreflightData)
    (db : FaultTable) : List SolverCall :=
  if cfg.maxRounds < 1 ∨ ¬ (0 < cfg.targetCoverage ∧ cfg.targetCoverage ≤ 100) then []
  else roundsCalls core cfg inputOrder modelId preflight cfg.maxRounds 1
    { db := initialTable modelId preflight db }

/-! ## Waves -/

/-- A wave is the wanted part of the next faults, and has some of them if there are any. -/
theorem exists_takeWave (wanted : ℕ → Bool) (size : ℕ) (ids : List ℕ) :
    ∃ front, ids = front ++ (takeWave wanted size ids).2 ∧
      (takeWave wanted size ids).1 = front.filter wanted ∧
      (0 < size → (∃ id ∈ ids, wanted id = true) → (takeWave wanted size ids).1 ≠ []) := by
  fun_induction takeWave wanted size ids with
  | case1 ids => exact ⟨[], rfl, rfl, by simp⟩
  | case2 size => exact ⟨[], rfl, rfl, by simp⟩
  | case3 size id ids hid wave ih =>
    obtain ⟨front, hids, hwave, -⟩ := ih
    exact ⟨id :: front, by simp [← hids, wave], by simp [hid, hwave, wave], by simp⟩
  | case4 size id ids hid ih =>
    obtain ⟨front, hids, hwave, hsome⟩ := ih
    refine ⟨id :: front, by simp [← hids], by simp [hid, hwave], fun hpos hex => hsome hpos ?_⟩
    simpa [hid] using hex

/-- What a wave leaves for later is not in it. -/
theorem takeWave_disjoint {wanted : ℕ → Bool} {size : ℕ} {ids : List ℕ} (hnodup : ids.Nodup) :
    (takeWave wanted size ids).2.Nodup ∧ ∀ id ∈ (takeWave wanted size ids).2,
      id ∈ ids ∧ id ∉ (takeWave wanted size ids).1 := by
  obtain ⟨front, hids, hwave, -⟩ := exists_takeWave wanted size ids
  rw [hids, List.nodup_append] at hnodup
  refine ⟨hnodup.2.1, fun id hid => ⟨hids ▸ List.mem_append_right _ hid, fun hin => ?_⟩⟩
  rw [hwave, List.mem_filter] at hin
  exact hnodup.2.2 id hin.1 id hid rfl

theorem mem_interleaveChunks {easy hard fuel : ℕ} {items : List ℕ} (heasy : 0 < easy)
    (hfuel : items.length ≤ fuel) {id : ℕ} :
    id ∈ interleaveChunks easy hard fuel items ↔ id ∈ items := by
  fun_induction interleaveChunks easy hard fuel items with
  | case1 items => simp [List.length_eq_zero_iff.1 (Nat.le_zero.1 hfuel)]
  | case2 fuel => simp
  | case3 fuel items hne rest ih =>
    have hpos : 0 < items.length := List.length_pos_iff.2 (by simpa using hne)
    have hlen : ((rest.drop hard).reverse).length ≤ fuel := by
      simp only [rest, List.length_reverse, List.length_drop]
      omega
    rw [List.mem_append, List.mem_append, ih hlen, List.mem_reverse]
    have hrest : id ∈ rest.take hard ∨ id ∈ rest.drop hard ↔ id ∈ rest := by
      rw [← List.mem_append, List.take_append_drop]
    have hitems : id ∈ items.take easy ∨ id ∈ items.drop easy ↔ id ∈ items := by
      rw [← List.mem_append, List.take_append_drop]
    rw [or_assoc, hrest, List.mem_reverse, hitems]

/-- A wave is submitted in another order. -/
theorem mem_interleaveEasyHard {items : List ℕ} {workers easyReserve id : ℕ} :
    id ∈ interleaveEasyHard items workers easyReserve ↔ id ∈ items := by
  unfold interleaveEasyHard
  split
  · rfl
  · rename_i hproper
    exact mem_interleaveChunks (by omega) le_rfl

theorem mem_dispatchOrder {core : Core} {cfg : AtpgConfig} {db : FaultTable} {ids : List ℕ}
    {id : ℕ} : id ∈ dispatchOrder core cfg db ids ↔ id ∈ ids := by
  unfold dispatchOrder
  dsimp only
  split
  · rw [mem_interleaveEasyHard]
    split <;> simp [List.mem_insertionSort]
  · split <;> simp [List.mem_insertionSort]

/-- Two states that make the same call for a fault. -/
structure SameFor (id : ℕ) (s s' : RunState) : Prop where
  row : s'.db[id]? = s.db[id]?
  rejected : s'.rejectedPatterns.getD id ∅ = s.rejectedPatterns.getD id ∅
  timeouts : s'.priorTimeoutCount.getD id 0 = s.priorTimeoutCount.getD id 0

section Waves

variable {core} {cfg} {inputOrder : List String} {modelId : String} {id : ℕ} {rest ids : List ℕ}
  {log : List SolverCall}

theorem SameFor.solverCall {s s' : RunState} (h : SameFor id s s') (call : ℕ) :
    s'.solverCall core cfg call id = s.solverCall core cfg call id := by
  have hblocked : s'.blocked id = s.blocked id := by
    rw [RunState.blocked, h.rejected, RunState.blocked]
  have htier : s'.tierTimeout cfg id = s.tierTimeout cfg id := by
    rw [RunState.tierTimeout, h.timeouts, RunState.tierTimeout]
  rw [RunState.solverCall, RunState.solverCall, hblocked, htier, solveFaultForDb, h.row,
    solveFaultForDb]

theorem collectCalls_calls (s : RunState) (n call : ℕ) (ids : List ℕ) :
    collectCalls core cfg { s with calls := n } call ids = collectCalls core cfg s call ids := by
  induction ids generalizing call with
  | nil => rfl
  | cons id ids ih =>
    rw [collectCalls, ih, collectCalls]
    rfl

theorem stopAt_eq_ok {α : Type} {db : FaultTable} {x : Except RunnerError α} {a : α} :
    stopAt db x = .ok a ↔ x = .ok a := by
  cases x <;> simp [stopAt]

/-- A round state but for what is solved ahead. -/
def RoundState.withoutWaves (rs : RoundState) : RoundState :=
  { rs with calls := 0, parallelResults := ∅, undispatched := [] }

theorem RoundState.eq_of_withoutWaves {rs rs' : RoundState}
    (h : rs'.withoutWaves = rs.withoutWaves) : rs'.db = rs.db ∧ rs'.remaining = rs.remaining ∧
      rs'.priorTimeoutCount = rs.priorTimeoutCount ∧ rs'.outcomes = rs.outcomes := by
  simp only [RoundState.withoutWaves, RoundState.mk.injEq, RunState.mk.injEq] at h
  tauto

/-- The call for a fault does not depend on what is solved ahead. -/
theorem RoundState.solverCall_eq {rs rs' : RoundState} (h : rs'.withoutWaves = rs.withoutWaves)
    (call id : ℕ) : rs'.solverCall core cfg call id = rs.solverCall core cfg call id := by
  show rs'.withoutWaves.solverCall core cfg call id = rs.withoutWaves.solverCall core cfg call id
  rw [h]

theorem RoundState.wanted_eq {rs rs' : RoundState} (h : rs'.withoutWaves = rs.withoutWaves) :
    rs'.wanted cfg = rs.wanted cfg := by
  show rs'.withoutWaves.wanted cfg = rs.withoutWaves.wanted cfg
  rw [h]

/-- What the results of a wave bring: one for each of its faults, from a call, unless the pool
raised something other than its own end. -/
theorem fetchResults_eq_ok {rs rs' : RoundState} {call : ℕ}
    (hpool : ∀ call, core.poolFailure call ≠ some .otherException)
    (h : fetchResults core cfg call rs ids = .ok rs') :
    rs'.withoutWaves = rs.withoutWaves ∧ rs'.undispatched = rs.undispatched ∧
    (∀ id ∈ ids, ∃ k, rs.solverCall core cfg k id ∈ collectCalls core cfg rs.toRunState call ids ∧
      rs'.parallelResults[id]? = some (rs.solverCall core cfg k id).verdict) ∧
    ∀ id ∉ ids, rs'.parallelResults[id]? = rs.parallelResults[id]? := by
  induction ids generalizing call rs with
  | nil =>
    cases h
    exact ⟨rfl, rfl, by simp, fun _ _ => rfl⟩
  | cons a ids ih =>
    rw [fetchResults] at h
    split at h
    · cases h
    · rename_i hother
      exact absurd hother (hpool _)
    rename_i hnone
    obtain ⟨hrs', hund, hresults, hold⟩ := ih h
    refine ⟨hrs', hund, fun k hk => ?_, fun k hk => ?_⟩
    · by_cases hlater : k ∈ ids
      · obtain ⟨n, hcall, hres⟩ := hresults k hlater
        exact ⟨n, by rw [collectCalls, hnone]; exact List.mem_cons_of_mem _ hcall, hres⟩
      · obtain rfl : k = a := (List.mem_cons.1 hk).resolve_right hlater
        refine ⟨call, by rw [collectCalls]; exact List.mem_cons_self, ?_⟩
        rw [hold k hlater, TreeMap.getElem?_insert_self]
        rfl
    · rw [List.mem_cons, not_or] at hk
      rw [hold k hk.2, TreeMap.getElem?_insert, if_neg (by simpa using Ne.symm hk.1)]

/-- **What a wave brings.** -/
theorem collectWave_eq_ok {rs rs' : RoundState}
    (hpool : ∀ call, core.poolFailure call ≠ some .otherException)
    (h : collectWave core cfg rs ids = .ok rs') :
    rs'.withoutWaves = rs.withoutWaves ∧ rs'.undispatched = rs.undispatched ∧
    (∀ id ∈ ids, ∃ call, rs.solverCall core cfg call id ∈
      collectCalls core cfg rs.toRunState rs.calls ids ∧
      rs'.parallelResults[id]? = some (rs.solverCall core cfg call id).verdict) ∧
    ∀ id ∉ ids, rs'.parallelResults[id]? = rs.parallelResults[id]? := by
  obtain ⟨hrs', hund, hresults, hold⟩ := fetchResults_eq_ok hpool h
  refine ⟨hrs', hund, fun id hid => ?_, hold⟩
  obtain ⟨call, hcall, hres⟩ := hresults id hid
  exact ⟨call, collectCalls_calls rs.toRunState _ _ _ ▸ hcall, hres⟩

/-- Without failures of the pool every result is fetched. -/
theorem exists_fetchResults (hpool : ∀ call, core.poolFailure call = none) (call : ℕ)
    (rs : RoundState) (ids : List ℕ) : ∃ rs', fetchResults core cfg call rs ids = .ok rs' := by
  induction ids generalizing call rs with
  | nil => exact ⟨rs, rfl⟩
  | cons a ids ih =>
    rw [fetchResults, hpool]
    exact ih _ _

/-! ## The invariant -/

/-- **Waiting results are those of calls that were made, and nothing wanted was
left behind**: the faults up to the next wave have results, or all faults since
the last wave are dropped. -/
structure WaveInv (core : Core) (cfg : AtpgConfig) (log : List SolverCall) (rest : List ℕ)
    (rs : RoundState) : Prop where
  results : ∀ id ∈ rest, rs.wanted cfg id = true → ∀ solved, rs.parallelResults[id]? = some solved →
    ∃ call, rs.solverCall core cfg call id ∈ log ∧
      solved = (rs.solverCall core cfg call id).verdict
  serial : parallel core cfg = false → rs.parallelResults.isEmpty = true
  nodup : rs.undispatched.Nodup
  fresh : ∀ id ∈ rs.undispatched, id ∉ rs.parallelResults
  placed : parallel core cfg = true →
    (∃ front, rest = front ++ rs.undispatched ∧
      ∀ id ∈ front, rs.wanted cfg id = true → id ∈ rs.parallelResults) ∨
    ∃ dropped, rs.undispatched = dropped ++ rest ∧ ∀ id ∈ dropped, rs.wanted cfg id = false

/-- At the start of a round nothing is dispatched. -/
theorem waveInv_phaseStart (preflight : Option PreflightData) (s : RunState) :
    WaveInv core cfg [] (phaseStart preflight s).undispatched (phaseStart preflight s) where
  results _ _ _ _ hsolved := by simp [phaseStart] at hsolved
  serial _ := by simp [phaseStart]
  nodup := nodup_roundOrder preflight _
  fresh _ _ := by simp [phaseStart]
  placed _ := .inl ⟨[], rfl, by simp⟩

variable {rs : RoundState}

/-- A fault that is skipped. -/
theorem WaveInv.skip (h : WaveInv core cfg log (id :: rest) rs) (hskip : rs.wanted cfg id = false) :
    WaveInv core cfg log rest rs where
  results k hk := h.results k (List.mem_cons_of_mem _ hk)
  serial := h.serial
  nodup := h.nodup
  fresh := h.fresh
  placed hpar := by
    rcases h.placed hpar with ⟨front, hrest, hfront⟩ | ⟨dropped, hund, hdropped⟩
    · cases front with
      | nil => exact .inr ⟨[id], hrest.symm, by simpa using hskip⟩
      | cons a front =>
        obtain ⟨-, hrest⟩ := List.cons.inj hrest
        exact .inl ⟨front, hrest, fun k hk => hfront k (List.mem_cons_of_mem _ hk)⟩
    · refine .inr ⟨dropped ++ [id], by simp [hund], fun k hk => ?_⟩
      rcases List.mem_append.1 hk with hk | hk
      · exact hdropped k hk
      · exact List.mem_singleton.1 hk ▸ hskip

theorem WaveInv.mono (h : WaveInv core cfg log rest rs) (more : List SolverCall) :
    WaveInv core cfg (log ++ more) rest rs where
  results k hk hwant solved hsolved := by
    obtain ⟨call, hcall, heq⟩ := h.results k hk hwant solved hsolved
    exact ⟨call, List.mem_append_left _ hcall, heq⟩
  serial := h.serial
  nodup := h.nodup
  fresh := h.fresh
  placed := h.placed

/-- The next wave begins with the fault whose turn it is. -/
theorem WaveInv.exists_wave (h : WaveInv core cfg log (id :: rest) rs)
    (hpar : parallel core cfg = true) (hwant : rs.wanted cfg id = true)
    (hmissing : id ∉ rs.parallelResults) :
    ∃ front, rest = front ++ (takeWave (rs.wanted cfg) (waveSize cfg) rs.undispatched).2 ∧
      ∀ k ∈ id :: front, rs.wanted cfg k = true →
        k ∈ (takeWave (rs.wanted cfg) (waveSize cfg) rs.undispatched).1 := by
  obtain ⟨dropped, hund, hdropped⟩ : ∃ dropped, rs.undispatched = dropped ++ id :: rest ∧
      ∀ k ∈ dropped, rs.wanted cfg k = false := by
    rcases h.placed hpar with ⟨front, hrest, hfront⟩ | hbehind
    · cases front with
      | nil => exact ⟨[], hrest.symm, by simp⟩
      | cons a front =>
        obtain ⟨rfl, -⟩ := List.cons.inj hrest
        exact absurd (hfront id List.mem_cons_self hwant) hmissing
    · exact hbehind
  obtain ⟨front, hsplit, hfirst, hsome⟩ :=
    exists_takeWave (rs.wanted cfg) (waveSize cfg) rs.undispatched
  have hne := hsome (by unfold waveSize; omega) ⟨id, by simp [hund], hwant⟩
  rw [hfirst] at hne ⊢
  have hnone : dropped.filter (rs.wanted cfg) = [] :=
    List.filter_eq_nil_iff.2 fun k hk => by simp [hdropped k hk]
  -- a wave that ends among the dropped faults would be empty
  rcases List.append_eq_append_iff.1 (hund.symm.trans hsplit) with
    ⟨more, rfl, hmore⟩ | ⟨more, rfl, -⟩
  · cases more with
    | nil => exact absurd (by simpa using hnone) hne
    | cons a more =>
      obtain ⟨rfl, hrest⟩ := List.cons.inj hmore
      exact ⟨more, hrest, fun k hk hk' => List.mem_filter.2 ⟨List.mem_append_right _ hk, hk'⟩⟩
  · rw [List.filter_append] at hnone
    exact absurd (List.append_eq_nil_iff.1 hnone).1 hne

/-- **Before its turn a fault is solved**, if it is to be solved ahead. -/
theorem WaveInv.ensureWave {rs rs' : RoundState}
    (hpool : ∀ call, core.poolFailure call ≠ some .otherException)
    (h : WaveInv core cfg log (id :: rest) rs) (hwant : rs.wanted cfg id = true)
    (hwave : ensureWave core cfg rs id = .ok rs') :
    WaveInv core cfg (log ++ waveCalls core cfg rs id) (id :: rest) rs' ∧
      (parallel core cfg = true → id ∈ rs'.parallelResults) ∧
      rs'.withoutWaves = rs.withoutWaves := by
  unfold Runner.ensureWave at hwave
  split at hwave
  · rename_i hnew
    have hcond : (parallel core cfg && !rs.parallelResults.contains id) = true := hnew
    have hcalls : waveCalls core cfg rs id = collectCalls core cfg rs.toRunState rs.calls
        (dispatchOrder core cfg rs.db
          (takeWave (rs.wanted cfg) (waveSize cfg) rs.undispatched).1) := by
      rw [waveCalls, if_pos hcond]
    rw [Bool.and_eq_true] at hcond
    have hmissing : id ∉ rs.parallelResults := by
      simpa [← TreeMap.contains_iff_mem] using hcond.2
    obtain ⟨front, hrest, hfront⟩ := h.exists_wave hcond.1 hwant hmissing
    obtain ⟨hrs', hund, hresults, hold⟩ := collectWave_eq_ok hpool hwave
    have hrs' : rs'.withoutWaves = rs.withoutWaves := hrs'
    have hwanted : rs'.wanted cfg = rs.wanted cfg := RoundState.wanted_eq hrs'
    have hplaced : ∀ k ∈ id :: front, rs.wanted cfg k = true → k ∈ rs'.parallelResults := by
      intro k hk hk'
      obtain ⟨call, -, hres⟩ := hresults k (mem_dispatchOrder.2 (hfront k hk hk'))
      exact TreeMap.mem_iff_isSome_getElem?.2 (by rw [hres]; rfl)
    have hund : rs'.undispatched = (takeWave (rs.wanted cfg) (waveSize cfg) rs.undispatched).2 := hund
    obtain ⟨hnodup, hlater⟩ :=
      takeWave_disjoint h.nodup
    refine ⟨⟨fun k hk hk' solved hsolved => ?_, fun hser => ?_, hund ▸ hnodup, fun k hk => ?_,
      fun _ => .inl ⟨id :: front, ?_, ?_⟩⟩, fun _ => hplaced id List.mem_cons_self hwant, ?_⟩
    · rw [hwanted] at hk'
      simp only [RoundState.solverCall_eq hrs', hcalls]
      by_cases hin : k ∈ dispatchOrder core cfg rs.db
          (takeWave (rs.wanted cfg) (waveSize cfg) rs.undispatched).1
      · obtain ⟨call, hmem, hres⟩ := hresults k hin
        exact ⟨call, List.mem_append_right _ hmem, Option.some.inj (hsolved.symm.trans hres)⟩
      · obtain ⟨call, hmem, hres⟩ := h.results k hk hk' solved ((hold k hin).symm.trans hsolved)
        exact ⟨call, List.mem_append_left _ hmem, hres⟩
    · exact absurd hcond.1 (by simp [hser])
    · obtain ⟨hin, hout⟩ := hlater k (hund ▸ hk)
      rw [TreeMap.mem_iff_isSome_getElem?, hold k fun hk' => hout (mem_dispatchOrder.1 hk'),
        ← TreeMap.mem_iff_isSome_getElem?]
      exact h.fresh k hin
    · rw [hund, hrest]
      rfl
    · rw [hwanted]
      exact hplaced
    · exact hrs'
  · rename_i hnew
    cases hwave
    have hcond : ¬ (parallel core cfg && !rs.parallelResults.contains id) = true := hnew
    rw [waveCalls, if_neg hcond, List.append_nil]
    refine ⟨h, fun hpar => ?_, rfl⟩
    simpa [hpar, ← TreeMap.contains_iff_mem] using hcond

/-- **The verdict on a fault is the one of a call made for it**, with the blocked
patterns and the limit of its turn. -/
theorem WaveInv.verdictFor {r : Atpg.SolveOutcome PiMap × RoundState}
    (h : WaveInv core cfg log (id :: rest) rs) (hnew : id ∉ rest) (hwant : rs.wanted cfg id = true)
    (hhas : parallel core cfg = true → id ∈ rs.parallelResults)
    (hverdict : verdictFor core cfg rs id = .ok r) :
    (∃ call, rs.solverCall core cfg call id ∈ log ++ turnCalls core cfg rs id ∧
      r.1 = (rs.solverCall core cfg call id).verdict) ∧
    WaveInv core cfg (log ++ turnCalls core cfg rs id) rest r.2 ∧
    r.2.withoutWaves = rs.withoutWaves := by
  unfold Runner.verdictFor at hverdict
  split at hverdict
  · rename_i hempty
    obtain ⟨solved, hsolved, hr⟩ := bind_eq_ok.1 hverdict
    cases hr
    rw [turnCalls, if_pos hempty]
    have hserial : parallel core cfg ≠ true := fun hpar =>
      absurd (hhas hpar) (TreeMap.isEmpty_iff_forall_not_mem.1 hempty id)
    refine ⟨⟨rs.calls, by simp, ?_⟩, ?_, rfl⟩
    · simp only [SolverCall.verdict, RunState.solverCall, stopAt_eq_ok.1 hsolved]
    · have hmono := h.mono [rs.solverCall core cfg rs.calls id]
      exact ⟨fun k hk => hmono.results k (List.mem_cons_of_mem _ hk), h.serial, h.nodup, h.fresh,
        fun hpar => absurd hpar hserial⟩
  · rename_i hsome
    cases hverdict
    have hpar : parallel core cfg = true := by
      by_contra hser
      exact hsome (h.serial (by simpa using hser))
    obtain ⟨solved, hsolved⟩ := Option.isSome_iff_exists.1
      (TreeMap.mem_iff_isSome_getElem?.1 (hhas hpar))
    rw [turnCalls, if_neg hsome, List.append_nil]
    obtain ⟨call, hcall, hres⟩ := h.results id List.mem_cons_self hwant solved hsolved
    have herase : ∀ k, k ∈ rs.parallelResults.erase id ↔ k ≠ id ∧ k ∈ rs.parallelResults := by
      intro k
      rw [TreeMap.mem_erase, Ne, Std.LawfulEqCmp.compare_eq_iff_eq, ← Ne, ne_comm]
    refine ⟨⟨call, hcall, by rw [hsolved]; exact hres⟩, ⟨fun k hk hk' solved' hsolved' => ?_,
      fun hser => absurd hpar (by simp [hser]), h.nodup, fun k hk hk' => ?_, fun _ => ?_⟩, rfl⟩
    · rw [TreeMap.getElem?_erase] at hsolved'
      split at hsolved'
      · cases hsolved'
      · exact h.results k (List.mem_cons_of_mem _ hk) hk' solved' hsolved'
    · exact h.fresh k hk ((herase k).1 hk').2
    · have hdone : id ∉ rs.undispatched := fun hmem => h.fresh id hmem (hhas hpar)
      rcases h.placed hpar with ⟨front, hrest, hfront⟩ | ⟨dropped, hund, -⟩
      · cases front with
        | nil =>
          rw [List.nil_append] at hrest
          exact absurd (hrest ▸ List.mem_cons_self) hdone
        | cons a front =>
          obtain ⟨rfl, hlater⟩ := List.cons.inj hrest
          refine .inl ⟨front, hlater, fun k hk hk' => (herase k).2 ⟨fun heq => ?_, ?_⟩⟩
          · exact hnew (by rw [hlater]; exact List.mem_append_left _ (heq ▸ hk))
          · exact hfront k (List.mem_cons_of_mem _ hk) hk'
      · exact absurd (hund ▸ List.mem_append_right _ List.mem_cons_self) hdone

/-! ## A turn of the loop -/

theorem RoundState.wanted_iff :
    rs.wanted cfg id = true ↔ (cfg.faultDropSat = true → id ∈ rs.remaining) := by
  rw [RoundState.wanted, Bool.or_eq_true, TreeSet.contains_iff_mem]
  cases cfg.faultDropSat <;> simp

/-- **What a verdict on a fault leaves alone**: the waiting results, all that the
calls for other faults depend on, and the order of events. -/
structure TurnOf (cfg : AtpgConfig) (id : ℕ) (rs rs' : RoundState) : Prop where
  undispatched : rs'.undispatched = rs.undispatched
  results : rs'.parallelResults = rs.parallelResults
  wanted : ∀ k, rs'.wanted cfg k = true → rs.wanted cfg k = true
  same : ∀ k ≠ id, rs'.wanted cfg k = true → SameFor k rs.toRunState rs'.toRunState
  timeouts : ∀ k ≠ id, rs'.priorTimeoutCount.getD k 0 = rs.priorTimeoutCount.getD k 0
  active : ∀ (k : ℕ) (row : FaultRow), rs'.db[k]? = some row → row.active = true →
    rs.db[k]? = some row ∧ (k ∈ rs.remaining → k ∈ rs'.remaining)
  outcomes : rs.outcomes <+: rs'.outcomes

theorem turnOf_noProgress (rs : RoundState) (id : ℕ) (key : String) :
    TurnOf cfg id rs (noProgress rs id key) where
  undispatched := rfl
  results := rfl
  wanted _ hk := hk
  same k hk _ := by
    refine ⟨rfl, ?_, rfl⟩
    simp only [noProgress, RunState.reject, TreeMap.getD_insert]
    rw [if_neg (by simpa using Ne.symm hk)]
  timeouts _ _ := rfl
  active _ _ hrow _ := ⟨hrow, fun hk => hk⟩
  outcomes := List.prefix_append _ _

theorem turnOf_countTimeout (rs : RoundState) (id : ℕ) (stats : AtpgStats) (o : RoundOutcome) :
    TurnOf cfg id rs { rs with
      toRunState := { rs.countTimeout id with stats := stats }, outcomes := rs.outcomes ++ [o] } := by
  have hcount : ∀ k ≠ id, (rs.countTimeout id).priorTimeoutCount.getD k 0 =
      rs.priorTimeoutCount.getD k 0 := by
    intro k hk
    rw [RunState.countTimeout, TreeMap.getD_insert, if_neg (by simpa using Ne.symm hk)]
  exact ⟨rfl, rfl, fun _ hk => hk, fun k hk _ => ⟨rfl, rfl, hcount k hk⟩, hcount,
    fun _ _ hrow _ => ⟨hrow, fun hk => hk⟩, List.prefix_append _ _⟩

theorem turnOf_acceptCandidate {rs rs' : RoundState} {key : String} {v : PiMap}
    (h : acceptCandidate core cfg rs id key v = .ok rs') : TurnOf cfg id rs rs' := by
  obtain ⟨graded, hgraded, h⟩ := bind_eq_ok.1 h
  cases h
  obtain ⟨hdetects, hnewly⟩ := simulateIncremental_eq_ok (stopAt_eq_ok.1 hgraded)
  -- what is still wanted was not detected, the target apart
  have hout : ∀ k ≠ id, (cfg.faultDropSat = true → k ∈ if cfg.faultDropSat then
      graded.2.foldl TreeSet.erase rs.remaining else rs.remaining) → k ∉ graded.2 := by
    intro k hk hwant hmem
    have hin := ((hnewly k).1 hmem).1
    cases hdrop : cfg.faultDropSat with
    | true =>
      simp only [hdrop, if_true, forall_const, mem_drop_newly] at hwant
      exact hwant.2 hmem
    | false =>
      simp only [hdrop, Bool.false_eq_true, if_false, List.mem_singleton] at hin
      exact hk hin
  refine ⟨rfl, rfl, fun k hk => ?_, fun k hk hk' => ⟨?_, rfl, rfl⟩, fun _ _ => rfl,
    fun k row hrow hact => ?_, List.prefix_append _ _⟩
  · rw [RoundState.wanted_iff] at hk ⊢
    intro hdrop
    simp only [hdrop, if_true, forall_const, mem_drop_newly] at hk
    exact hk.1
  · have := hout k hk (RoundState.wanted_iff.1 hk')
    simp [hdetects k, this]
  · obtain ⟨row', hrow', -, -, hsame⟩ := hdetects.exists_row hrow
    obtain ⟨hnot, rfl⟩ := hsame hact
    refine ⟨hrow', fun hk => ?_⟩
    dsimp only
    split
    · exact mem_drop_newly.2 ⟨hk, hnot⟩
    · exact hk

theorem turnOf_handleCandidate {rs rs' : RoundState} {v : PiMap}
    (h : handleCandidate core cfg inputOrder rs id v = .ok rs') : TurnOf cfg id rs rs' := by
  have hstats : ∀ {rs₁ rs₂ : RoundState} {stats : AtpgStats},
      TurnOf cfg id { rs₁ with stats := stats } rs₂ → TurnOf cfg id rs₁ rs₂ := fun ht =>
    ⟨ht.undispatched, ht.results, ht.wanted, fun k hk hk' => ⟨(ht.same k hk hk').row,
      (ht.same k hk hk').rejected, (ht.same k hk hk').timeouts⟩, ht.timeouts, ht.active, ht.outcomes⟩
  unfold handleCandidate at h
  dsimp only at h
  split at h
  · cases h
    exact hstats (turnOf_noProgress _ _ _)
  split at h
  · cases h
  split at h
  · exact hstats (turnOf_acceptCandidate h)
  · cases h
    exact hstats (hstats (turnOf_noProgress _ _ _))

theorem turnOf_handleVerdict {rs rs' : RoundState} {solved : Atpg.SolveOutcome PiMap}
    (h : handleVerdict core cfg inputOrder modelId rs id solved = .ok rs') : TurnOf cfg id rs rs' := by
  unfold handleVerdict at h
  split at h
  · exact turnOf_handleCandidate h
  · cases h
    refine ⟨rfl, rfl, fun _ hk => hk, fun k hk _ => ⟨?_, rfl, rfl⟩, fun _ _ => rfl,
      fun k row hrow hact => ⟨?_, fun hk => hk⟩, List.prefix_rfl⟩
    · simp only [FaultTable.markRedundant, FaultTable.getElem?_modify', if_neg hk]
    · simp only [FaultTable.markRedundant, FaultTable.getElem?_modify'] at hrow
      split at hrow
      · obtain ⟨row', hrow', rfl⟩ := Option.map_eq_some_iff.1 hrow
        rcases FaultRow.certify_cases modelId row' with heq | ⟨-, hinactive⟩
        · rw [heq]
          exact hrow'
        · exact absurd hact (by simp [hinactive])
      · exact hrow
  · cases h
    exact turnOf_countTimeout _ _ _ _
  · cases h
    exact turnOf_countTimeout _ _ _ _

/-- A verdict on one fault keeps the invariant for the others. -/
theorem WaveInv.turnOf {rs rs' : RoundState} (h : WaveInv core cfg log rest rs) (hnew : id ∉ rest)
    (ht : TurnOf cfg id rs rs') : WaveInv core cfg log rest rs' where
  results k hk hk' solved hsolved := by
    have hne : k ≠ id := fun heq => hnew (heq ▸ hk)
    rw [ht.results] at hsolved
    simp only [(ht.same k hne hk').solverCall]
    exact h.results k hk (ht.wanted k hk') solved hsolved
  serial := ht.results ▸ h.serial
  nodup := ht.undispatched ▸ h.nodup
  fresh := by
    rw [ht.undispatched, ht.results]
    exact h.fresh
  placed hpar := by
    rw [ht.undispatched, ht.results]
    rcases h.placed hpar with ⟨front, hrest, hfront⟩ | ⟨dropped, hund, hdropped⟩
    · exact .inl ⟨front, hrest, fun k hk hk' => hfront k hk (ht.wanted k hk')⟩
    · refine .inr ⟨dropped, hund, fun k hk => ?_⟩
      by_contra hwant
      exact absurd (ht.wanted k (by simpa using hwant)) (by simp [hdropped k hk])

/-- **At its turn a fault is solved**, by a call made for it with what stands then. -/
theorem WaveInv.solved {rs rs₁ rs₂ : RoundState} {solved : Atpg.SolveOutcome PiMap}
    (hpool : ∀ call, core.poolFailure call ≠ some .otherException)
    (h : WaveInv core cfg log (id :: rest) rs) (hnew : id ∉ rest) (hwant : rs.wanted cfg id = true)
    (hwave : Runner.ensureWave core cfg rs id = .ok rs₁)
    (hverdict : Runner.verdictFor core cfg rs₁ id = .ok (solved, rs₂)) :
    WaveInv core cfg (log ++ processCalls core cfg rs id) rest rs₂ ∧
      rs₂.withoutWaves = rs.withoutWaves ∧
      ∃ call, rs.solverCall core cfg call id ∈ log ++ processCalls core cfg rs id ∧
        solved = (rs.solverCall core cfg call id).verdict := by
  obtain ⟨h₁, hhas, hrs₁⟩ := h.ensureWave hpool hwant hwave
  have hwant₁ : rs₁.wanted cfg id = true := by
    rw [RoundState.wanted_eq hrs₁]
    exact hwant
  obtain ⟨⟨call, hcall, hsolved⟩, h₂, hrs₂⟩ := h₁.verdictFor hnew hwant₁ hhas hverdict
  have hcalls : processCalls core cfg rs id =
      waveCalls core cfg rs id ++ turnCalls core cfg rs₁ id := by
    rw [processCalls, if_pos hwant, hwave]
  rw [List.append_assoc, ← hcalls] at hcall h₂
  rw [RoundState.solverCall_eq hrs₁] at hcall hsolved
  exact ⟨h₂, hrs₂.trans hrs₁, call, hcall, hsolved⟩

/-- A skipped fault, or the three steps of a turn. -/
theorem processFault_eq (rs : RoundState) (id : ℕ) :
    processFault core cfg inputOrder modelId rs id =
      if rs.wanted cfg id then do
        let rs₁ ← ensureWave core cfg rs id
        let verdict ← verdictFor core cfg rs₁ id
        handleVerdict core cfg inputOrder modelId verdict.2 id verdict.1
      else .ok rs := by
  unfold processFault RoundState.wanted
  cases cfg.faultDropSat <;> cases rs.remaining.contains id <;> rfl

/-- **A turn of the loop**: a skipped fault, or one whose verdict is that of a
call made for it. -/
theorem WaveInv.processFault {rs rs' : RoundState}
    (hpool : ∀ call, core.poolFailure call ≠ some .otherException)
    (h : WaveInv core cfg log (id :: rest) rs) (hnew : id ∉ rest)
    (hturn : processFault core cfg inputOrder modelId rs id = .ok rs') :
    WaveInv core cfg (log ++ processCalls core cfg rs id) rest rs' ∧
    (rs.wanted cfg id = false ∧ rs' = rs ∨ rs.wanted cfg id = true ∧
      ∃ (rs₁ : RoundState) (call : ℕ), rs₁.withoutWaves = rs.withoutWaves ∧
        rs.solverCall core cfg call id ∈ log ++ processCalls core cfg rs id ∧
        handleVerdict core cfg inputOrder modelId rs₁ id (rs.solverCall core cfg call id).verdict =
          .ok rs') := by
  rw [processFault_eq] at hturn
  split at hturn
  · rename_i hwant
    obtain ⟨rs₁, hwave, hturn⟩ := bind_eq_ok.1 hturn
    obtain ⟨⟨solved, rs₂⟩, hverdict, hturn⟩ := bind_eq_ok.1 hturn
    obtain ⟨h₂, hrs₂, call, hcall, hsolved⟩ := h.solved hpool hnew hwant hwave hverdict
    refine ⟨h₂.turnOf hnew (turnOf_handleVerdict hturn),
      .inr ⟨hwant, rs₂, call, hrs₂, hcall, ?_⟩⟩
    rw [← hsolved]
    exact hturn
  · rename_i hskip
    cases hturn
    have hskip : rs.wanted cfg id = false := by simpa using hskip
    exact ⟨(h.skip hskip).mono _, .inl ⟨hskip, rfl⟩⟩

end Waves

end FaultFlow.Runner
