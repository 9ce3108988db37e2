/-
# The life of a fault row

The statements of `FaultFlow.Db.Partition`, in any order.  A row keeps its fault, an exclusion is
never lifted, and a detection is only lost to an exclusion (`Lives`); the columns of a row agree
with its status at every point (`FaultRow.Consistent`).
-/

import FaultFlow.Db.Partition

namespace FaultFlow.Db

open Std (TreeMap)

/-- The status of a row and its other columns: a redundant fault has the model that shows it, a
detected fault is not unresolved, and an excluded fault has a reason. -/
structure FaultRow.Consistent (row : FaultRow) : Prop where
  model : row.status = .redundant → row.redundancyModelId.isSome
  resolved : row.status = .detected → row.protocolUnresolved = false
  tagged : row.status = .excluded → row.exclusion ≠ .none

/-- The fault of a row. -/
def FaultRow.fault (row : FaultRow) : ℕ × YosysNetID × CompiledNetIndex × FaultType :=
  (row.id, row.netId, row.compiledNetIndex, row.faultType)

/-- A row before and after some steps. -/
structure Lives (row row' : FaultRow) : Prop where
  fault : row'.fault = row.fault
  excluded : row.exclusion ≠ .none → row'.exclusion ≠ .none
  detected : row.status = .detected → row'.status = .detected ∨ row'.exclusion ≠ .none
  consistent : row.Consistent → row'.Consistent

theorem Lives.refl (row : FaultRow) : Lives row row := ⟨rfl, id, .inl, id⟩

variable {row : FaultRow} {firstId : ℕ} {cg : CompiledSimGraph} {detected : ℕ → Bool}
  {faults : List CompactFault}

theorem Lives.trans {row' row'' : FaultRow} (h : Lives row row') (h' : Lives row' row'') :
    Lives row row'' where
  fault := h'.fault.trans h.fault
  excluded hx := h'.excluded (h.excluded hx)
  detected hdet := (h.detected hdet).elim h'.detected fun hx => .inr (h'.excluded hx)
  consistent hcons := h'.consistent (h.consistent hcons)

/-- The table before and after some steps. -/
def LivesOn (rows rows' : List FaultRow) : Prop :=
  ∃ f : FaultRow → FaultRow, rows' = rows.map f ∧ ∀ row, Lives row (f row)

variable {campaignId : ℕ} {rows rows' rows'' : List FaultRow}

theorem LivesOn.update {where_ : FaultRow → Bool} {set_ : FaultRow → FaultRow}
    (h : LivesOn rows rows') (hset : ∀ row, where_ row → Lives row (set_ row)) :
    LivesOn rows (update where_ set_ rows') := by
  obtain ⟨f, rfl, hf⟩ := h
  refine ⟨_, List.map_map, fun row => (hf row).trans ?_⟩
  rw [Function.comp_apply]
  split
  · exact hset _ ‹_›
  · exact .refl _

/-- **One step.** -/
theorem LivesOn.step {step : Step} (h : LivesOn rows rows')
    (hstep : step.apply campaignId rows' = .ok rows'') : LivesOn rows rows'' := by
  cases step with
  | applyScanExecutionMap execution exclusions =>
    rw [Step.apply, applyScanExecutionMap] at hstep
    split at hstep
    · cases hstep
    cases hstep
    have hindex : ∀ (row : FaultRow) index, Lives row { row with atpgCompiledNetIndex := index } :=
      fun row index => ⟨rfl, id, .inl, fun hcons => ⟨hcons.model, hcons.resolved, hcons.tagged⟩⟩
    refine Lib.foldl_invariant (LivesOn rows) ?_ fun p _ rows' hrows => hrows.update fun row _ => ?_
    · exact Lib.foldl_invariant (LivesOn rows) (h.update fun row _ => hindex row _)
        fun p _ rows' hrows => hrows.update fun row _ => hindex row _
    · have htag : tagExclusion p.2 ≠ .none := by cases p.2 <;> simp [tagExclusion]
      exact ⟨rfl, fun _ => htag, fun _ => .inr htag, fun _ => ⟨by simp, by simp, fun _ => htag⟩⟩
  | markFaultsDetected ids | commitCandidate ids =>
    cases hstep
    exact h.update fun row _ => ⟨rfl, id, fun _ => .inl rfl, fun _ => ⟨by simp, by simp, by simp⟩⟩
  | markFaultRedundant ids model | precertifyRedundant ids model =>
    cases hstep
    -- only an undetected fault is certified
    refine h.update fun row hwhere => ⟨rfl, id, fun hdet => ?_, fun _ => ⟨by simp, by simp, by simp⟩⟩
    simp [hdet] at hwhere
  | markFaultProtocolUnresolved key | terminationSweepQStems keys =>
    cases hstep
    refine h.update fun row hwhere => ⟨rfl, id, .inl, fun hcons => ⟨hcons.model, fun hdet => ?_,
      hcons.tagged⟩⟩
    simp only at hdet
    simp [hdet] at hwhere
  | invalidateStaleRedundant model =>
    cases hstep
    refine h.update fun row hwhere => ⟨rfl, id, fun hdet => ?_, fun _ => ⟨by simp, by simp, by simp⟩⟩
    simp [hdet] at hwhere

/-- **A run.** -/
theorem livesOn_run {steps : List Step}
    (h : steps.foldlM (Step.apply campaignId) rows = .ok rows') : LivesOn rows rows' :=
  Lib.foldlM_invariant (LivesOn rows) h ⟨id, by simp, .refl⟩ fun _ _ _ _ hrows hstep =>
    hrows.step hstep

theorem consistent_insertFaults (h : insertFaults campaignId firstId cg detected faults = .ok rows)
    (hrow : row ∈ rows) : row.Consistent := by
  obtain ⟨p, -, hins⟩ := (Lib.mem_of_mapM_eq_ok h).1 hrow
  obtain ⟨key, -, hret⟩ := Lib.bind_eq_ok.1 hins
  cases hret
  refine ⟨?_, fun _ => rfl, ?_⟩
  · dsimp only
    split_ifs <;> simp
  · cases hx : p.1.exclusion <;> simp [exclusionName, ite_eq_iff]

/-- **The life of a fault.**  At every point of a campaign the columns of each row agree with its
status, and whatever steps follow, no row appears or goes, each keeps its fault, an exclusion is
not lifted, and a detection is lost only to an exclusion. -/
theorem fault_lifetime (steps steps' : List Step)
    (hins : insertFaults campaignId firstId cg detected faults = .ok rows)
    (hrun : steps.foldlM (Step.apply campaignId) rows = .ok rows')
    (hrun' : steps'.foldlM (Step.apply campaignId) rows' = .ok rows'') :
    (∀ row ∈ rows', row.Consistent) ∧ LivesOn rows' rows'' := by
  refine ⟨?_, livesOn_run hrun'⟩
  obtain ⟨f, rfl, hf⟩ := livesOn_run hrun
  rw [List.forall_mem_map]
  exact fun row hrow => (hf row).consistent (consistent_insertFaults hins hrow)

/-- On the inverter beside the wrapper cell. -/
theorem bypass_lifetime : ∃ rows' rows'',
    (bypassSteps bypassView bypassViewGraph []).foldlM (Step.apply 1) bypassRows = .ok rows' ∧
    [Step.markFaultRedundant 11 "m", .commitCandidate [12]].foldlM (Step.apply 1) rows' =
      .ok rows'' ∧ (∀ row ∈ rows', row.Consistent) ∧ LivesOn rows' rows'' := by
  have hrun := Lib.eq_ok_resultOf ((bypassSteps bypassView bypassViewGraph []).foldlM
    (Step.apply 1) bypassRows) (by decide +kernel)
  exact ⟨_, _, hrun, rfl, fault_lifetime _ [.markFaultRedundant 11 "m", .commitCandidate [12]]
    insertFaults_bypass hrun rfl⟩

end FaultFlow.Db
