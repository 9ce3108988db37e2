/-
# The credit of a run

`faultflow/runner/progressive_atpg.py`.  A run marks faults as detected in its random phase and with
every candidate it accepts.  For each of them it returns a vector (`Credited`).
-/

import FaultFlow.Runner.Waves

namespace FaultFlow.Runner

open Lib

/-- A detected fault was so in `db₀`, or one of the vectors detects it. -/
def Credited (core : Core) (db₀ db : FaultTable) (vectors : List PiMap) : Prop :=
  ∀ (id : ℕ) (row : FaultRow), db[id]? = some row → row.status = .detected →
    db₀[id]? = some row ∨ ∃ v ∈ vectors, core.grade row.fault v = true

variable {core : Core} {cfg : AtpgConfig} {inputOrder : List String} {modelId : String}
  {preflight : Option PreflightData} {db₀ db : FaultTable} {vectors : List PiMap} {ids : List ℕ}
  {s : RunState} {index id : ℕ} {rs rs' : RoundState} {r : RunState × Terminal}

theorem Credited.simulateIncremental {v : PiMap} {graded : FaultTable × List ℕ}
    (h : Credited core db₀ db vectors) (hok : simulateIncremental core db v ids = .ok graded) :
    Credited core db₀ graded.1 (vectors ++ [v]) := by
  obtain ⟨hdetects, hnewly⟩ := simulateIncremental_eq_ok hok
  intro id row' hrow' hdet
  rw [hdetects, Option.map_eq_some_iff] at hrow'
  obtain ⟨row, hrow, rfl⟩ := hrow'
  by_cases hid : id ∈ graded.2
  · obtain ⟨-, row₁, hrow₁, -, hgrade⟩ := (hnewly id).1 hid
    obtain rfl : row = row₁ := Option.some.inj (hrow.symm.trans hrow₁)
    rw [if_pos hid, row.fault_detect]
    exact .inr ⟨v, by simp, hgrade⟩
  · rw [if_neg hid] at hdet ⊢
    refine (h id row hrow hdet).imp_right ?_
    rintro ⟨w, hw, hgrade⟩
    exact ⟨w, List.mem_append_left _ hw, hgrade⟩

/-- The random phase grades the vectors one after another, up to those it leaves. -/
theorem Credited.gradeRandom {denominator : ℕ} {batch : List PiMap} {r : FaultTable × List PiMap}
    (h : Credited core db₀ db vectors) (hok : gradeRandom core cfg ids denominator db batch = .ok r) :
    ∃ done, batch = done ++ r.2 ∧ Credited core db₀ r.1 (vectors ++ done) := by
  induction batch generalizing db vectors with
  | nil =>
    cases hok
    exact ⟨[], rfl, by simpa using h⟩
  | cons v batch ih =>
    obtain ⟨graded, hgraded, hok⟩ := bind_eq_ok.1 hok
    have h₁ := h.simulateIncremental (stopAt_eq_ok.1 hgraded)
    split at hok
    · cases hok
      exact ⟨[v], rfl, h₁⟩
    · obtain ⟨done, hbatch, hdone⟩ := ih h₁ hok
      exact ⟨v :: done, by rw [hbatch, List.cons_append], by simpa using hdone⟩

theorem Credited.fillPhase {s' : RunState} (h : Credited core db₀ s.db s.vectors)
    (hok : fillPhase core cfg inputOrder s index = .ok s') :
    Credited core db₀ s'.db s'.vectors := by
  unfold Runner.fillPhase at hok
  split at hok
  · obtain ⟨graded, hgraded, hok⟩ := bind_eq_ok.1 hok
    obtain ⟨done, hfresh, hdone⟩ := h.gradeRandom hgraded
    cases hok
    simpa [hfresh] using hdone
  · cases hok
    exact h

/-- A wave only solves ahead. -/
theorem withoutWaves_fetchResults {call : ℕ} (h : fetchResults core cfg call rs ids = .ok rs') :
    rs'.withoutWaves = rs.withoutWaves := by
  induction ids generalizing call rs with
  | nil =>
    cases h
    rfl
  | cons id ids ih =>
    rw [fetchResults] at h
    split at h
    · cases h
    · cases h
      rfl
    · have hsame := ih h
      exact hsame

theorem Credited.handleVerdict {solved : Atpg.SolveOutcome PiMap}
    (h : Credited core db₀ rs.db rs.vectors)
    (hok : handleVerdict core cfg inputOrder modelId rs id solved = .ok rs') :
    Credited core db₀ rs'.db rs'.vectors := by
  unfold Runner.handleVerdict at hok
  split at hok
  · unfold handleCandidate at hok
    dsimp only at hok
    split at hok
    · cases hok
      exact h
    split at hok
    · cases hok
    split at hok
    · obtain ⟨graded, hgraded, hok⟩ := bind_eq_ok.1 hok
      cases hok
      exact h.simulateIncremental (stopAt_eq_ok.1 hgraded)
    · cases hok
      exact h
  · -- a certified fault is not a detected one
    cases hok
    intro k row hrow hdet
    rw [FaultTable.markRedundant, FaultTable.getElem?_modify'] at hrow
    split at hrow
    · obtain ⟨row, hrow', rfl⟩ := Option.map_eq_some_iff.1 hrow
      unfold FaultRow.certify at hdet ⊢
      split at hdet
      · cases hdet
      · rename_i hopen
        rw [if_neg hopen]
        exact h k row hrow' hdet
    · exact h k row hrow hdet
  all_goals
    cases hok
    exact h

/-- **One turn of the loop.** -/
theorem Credited.processFault (h : Credited core db₀ rs.db rs.vectors)
    (hok : processFault core cfg inputOrder modelId rs id = .ok rs') :
    Credited core db₀ rs'.db rs'.vectors := by
  unfold Runner.processFault at hok
  split at hok
  · cases hok
    exact h
  obtain ⟨rs₁, hwave, hok⟩ := bind_eq_ok.1 hok
  obtain ⟨⟨solved, rs₂⟩, hverdict, hok⟩ := bind_eq_ok.1 hok
  refine Credited.handleVerdict ?_ hok
  have h₁ : rs₁.withoutWaves = rs.withoutWaves := by
    unfold ensureWave dispatchWave at hwave
    split at hwave
    · have hsame := withoutWaves_fetchResults hwave
      exact hsame
    · cases hwave
      rfl
  have h₂ : rs₂.withoutWaves = rs₁.withoutWaves := by
    unfold verdictFor at hverdict
    split at hverdict
    · obtain ⟨_, -, hverdict⟩ := bind_eq_ok.1 hverdict
      cases hverdict
      rfl
    · cases hverdict
      rfl
  show Credited core db₀ rs₂.withoutWaves.db rs₂.withoutWaves.vectors
  rw [h₂, h₁]
  exact h

/-- **The rounds.** -/
theorem Credited.rounds {n : ℕ} (h : Credited core db₀ s.db s.vectors)
    (hok : rounds core cfg inputOrder modelId preflight n index s = .ok r) :
    Credited core db₀ r.1.db r.1.vectors := by
  induction n generalizing index s with
  | zero =>
    cases hok
    exact h
  | succ n ih =>
    obtain ⟨⟨s₁, ended⟩, hround, hok⟩ := bind_eq_ok.1 hok
    have h₁ : Credited core db₀ s₁.db s₁.vectors := by
      unfold Runner.round at hround
      dsimp only at hround
      split at hround
      · cases hround
        exact h
      obtain ⟨s₂, hfill, hround⟩ := bind_eq_ok.1 hround
      have h₂ : Credited core db₀ s₂.db s₂.vectors := by
        refine Credited.fillPhase ?_ hfill
        exact h
      split at hround
      · cases hround
        exact h₂
      obtain ⟨rs, hphase, hround⟩ := bind_eq_ok.1 hround
      cases hround
      exact foldlM_invariant (fun rs : RoundState => Credited core db₀ rs.db rs.vectors) hphase h₂
        fun _ _ _ _ hrs hturn => hrs.processFault hturn
    cases ended with
    | some t =>
      cases hok
      exact h₁
    | none => exact ih h₁ hok

/-- The rounds begin with the detected faults of the table. -/
theorem credited_initialTable : Credited core db (initialTable modelId preflight db) [] := by
  intro id row hrow hdet
  unfold initialTable FaultTable.invalidateStaleRedundant FaultTable.precertifyRedundant at hrow
  cases preflight <;> simp only [Std.TreeMap.getElem?_map] at hrow <;> grind

/-- **The run.** -/
theorem credited_run
    (hrun : runProgressiveNativeAtpg core cfg inputOrder modelId preflight db = .ok r) :
    Credited core db r.1.db r.1.vectors := by
  unfold runProgressiveNativeAtpg at hrun
  split at hrun
  · cases hrun
  split at hrun
  · cases hrun
  obtain ⟨r', hrounds, hrun⟩ := bind_eq_ok.1 hrun
  split at hrun
  · cases hrun
  obtain rfl := Except.ok.inj hrun
  exact Credited.rounds credited_initialTable hrounds

/-- **Every credit has a vector.**  A fault that a run leaves detected was so before, or one of the
vectors that the run returns detects it. -/
theorem runProgressiveNativeAtpg_credited {r : RunState × Terminal}
    (hrun : runProgressiveNativeAtpg core cfg inputOrder modelId preflight db = .ok r) {id : ℕ}
    {row : FaultRow} (hrow : r.1.db[id]? = some row) (hdet : row.status = .detected) :
    db[id]? = some row ∨ ∃ v ∈ r.1.vectors, core.grade row.fault v = true :=
  credited_run hrun id row hrow hdet

abbrev andGateRun : Except Stopped (RunState × Terminal) :=
  smallRun andGate (enumerateFaults andGate.ng andGate.cg) true

/-- A run on the AND gate. -/
theorem andGate_credited : ∃ r row, andGateRun = .ok r ∧ r.1.db[1]? = some row ∧
    row.status = .detected ∧ ∃ v ∈ r.1.vectors, (smallCore andGate).grade row.fault v = true := by
  have hrun := eq_ok_resultOf andGateRun (by decide +kernel)
  have hdet : ((resultOf andGateRun (by decide +kernel)).1.db[1]?).any
      (·.status = .detected) = true := by decide +kernel
  have hopen : ((tableOf andGate (enumerateFaults andGate.ng andGate.cg))[1]?).all
      (·.status ≠ .detected) = true := by decide +kernel
  obtain ⟨row, hrow, hdet⟩ := (Option.any_eq_true _ _).1 hdet
  rcases runProgressiveNativeAtpg_credited hrun hrow (by simpa using hdet) with hold | hv
  · simp [hold, of_decide_eq_true hdet] at hopen
  · exact ⟨_, row, hrun, hrow, by simpa using hdet, hv⟩

end FaultFlow.Runner
