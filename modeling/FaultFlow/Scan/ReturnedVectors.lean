/-
# The vectors a scan campaign returns

Row `k` of the vectors that `run_progressive_scan_atpg` returns and row `k` of the patterns it
stores belong to the same candidate, and the faults credited to index `k + 1` are those the
candidate passed for (`Recorded`).  `_process_scan_candidate` grades and stores the vector it
applies, with resets at their held values.  The caller keeps its own copy of the candidate, without
them: the returned row is the graded vector iff the candidate had every held value already
(`runProgressiveScanAtpg_rows`).
-/

import FaultFlow.Scan.DetectionPipeline

namespace FaultFlow.Scan

open Std (TreeMap TreeSet)
open Runner

/-! ## The vector that is applied -/

/-- The vectors give the inputs the same values, a missing one being `0`. -/
def Encodes (inputOrder : List String) (v w : PiMap) : Prop :=
  ∀ name ∈ inputOrder, v.getD name false = w.getD name false

/-- The vector has the value of every hold on an input that it names. -/
def PipelineContext.RespectsHolds (ctx : PipelineContext) (v : PiMap) : Prop :=
  ∀ name ∈ ctx.inputOrder, name ∈ v → ∀ value, ctx.holds[name]? = some value →
    v.getD name false = value

section Applied

variable (ctx : PipelineContext) (v : PiMap) {name : String}

theorem getD_applied (h : name ∈ ctx.inputOrder) :
    (ctx.applied v).getD name false = (ctx.held v).getD name false :=
  Lib.getD_foldl_insert (fun pi => pi) (fun pi => (ctx.held v).getD pi false) ⟨name, h, rfl⟩
    fun _ _ heq => heq ▸ rfl

/-- The keys of the holds that apply are distinct. -/
theorem nodup_held_keys :
    ((ctx.holds.toList.filter fun p => v.contains p.1).map Prod.fst).Nodup := by
  have hkeys : (ctx.holds.toList.map Prod.fst).Nodup := by
    rw [TreeMap.map_fst_toList_eq_keys]
    exact TreeMap.nodup_keys
  exact hkeys.sublist (List.filter_sublist.map _)

/-- A hold on an input that the vector names. -/
theorem getD_held_of_hold {value : Bool} (hname : name ∈ v) (hhold : ctx.holds[name]? = some value) :
    (ctx.held v).getD name false = value := by
  have hmem : (name, value) ∈ ctx.holds.toList.filter fun p => v.contains p.1 :=
    List.mem_filter.2 ⟨TreeMap.mem_toList_iff_getElem?_eq_some.2 hhold,
      TreeMap.mem_iff_contains.1 hname⟩
  have hget := (Lib.getElem?_foldl_insert Prod.fst Prod.snd (m := v) (nodup_held_keys ctx v)).1
    _ hmem
  rw [TreeMap.getD_eq_getD_getElem?, PipelineContext.held, hget, Option.getD_some]

/-- Without one, the vector's own value. -/
theorem getD_held_of_free (h : name ∉ v ∨ ctx.holds[name]? = none) :
    (ctx.held v).getD name false = v.getD name false := by
  have hout : ∀ p ∈ ctx.holds.toList.filter fun p => v.contains p.1, p.1 ≠ name := by
    rintro ⟨key, value⟩ hp rfl
    obtain ⟨hp, hkey⟩ := List.mem_filter.1 hp
    rcases h with h | h
    · exact h (TreeMap.mem_iff_contains.2 hkey)
    · rw [TreeMap.mem_toList_iff_getElem?_eq_some.1 hp] at h
      cases h
  rw [TreeMap.getD_eq_getD_getElem?, TreeMap.getD_eq_getD_getElem? (t := v), PipelineContext.held,
    (Lib.getElem?_foldl_insert Prod.fst Prod.snd (nodup_held_keys ctx v)).2 name hout]

/-- **A vector is the one applied for it iff it respects the holds.** -/
theorem encodes_applied_iff : Encodes ctx.inputOrder v (ctx.applied v) ↔ ctx.RespectsHolds v := by
  constructor
  · intro h name hname hmem value hhold
    rw [h name hname, getD_applied ctx v hname, getD_held_of_hold ctx v hmem hhold]
  · intro h name hname
    rw [getD_applied ctx v hname]
    by_cases hmem : name ∈ v
    · cases hhold : ctx.holds[name]? with
      | none => rw [getD_held_of_free ctx v (.inr hhold)]
      | some value => rw [getD_held_of_hold ctx v hmem hhold, h name hname hmem value hhold]
    · rw [getD_held_of_free ctx v (.inl hmem)]

end Applied

/-! ## What a campaign has recorded -/

/-- The launch frame of a stored row: the vector itself but for a transition test. -/
def StoredVector.launchFrame (row : StoredVector) (ctx : PipelineContext) : String :=
  if ctx.transition then row.launchPattern else row.pattern

/-- The row of `vectors` that a grade is stored in. -/
def Graded.row (graded : Graded) (index : ℕ) : StoredVector :=
  { vectorIndex := index, pattern := graded.frames.pattern
    launchPattern := graded.frames.launchPattern }

/-- **Row `k` of a campaign**: the candidate, and its grade under the vector applied. -/
structure RowGraded (core : PipelineCore) (ctx : PipelineContext) (s : ScanRunState) (k : ℕ)
    (c : Candidate) (graded : Graded) : Prop where
  vector : s.vectors[k]? = some c.vector
  grade : gradeUnder core ctx c (ctx.applied c.vector) = .ok graded
  passed : graded.passed ≠ []
  stored : s.stored[k]? = some (graded.row (k + 1))
  credited : ∀ id, (id, k + 1) ∈ s.detections ↔ id ∈ graded.passed

/-- Every row has its candidate. -/
structure Recorded (core : PipelineCore) (ctx : PipelineContext) (s : ScanRunState) : Prop where
  length : s.stored.length = s.vectors.length
  rows : ∀ k < s.vectors.length, ∃ c graded, RowGraded core ctx s k c graded
  index : ∀ d ∈ s.detections, d.2 ≤ s.vectors.length

section Recorded

variable {core : PipelineCore} {ctx : PipelineContext} {s s' : ScanRunState}

/-- Only the three tables matter. -/
theorem Recorded.congr (h : Recorded core ctx s) (hv : s'.vectors = s.vectors)
    (hs : s'.stored = s.stored) (hd : s'.detections = s.detections) : Recorded core ctx s' where
  length := by rw [hs, hv, h.length]
  rows k hk := by
    obtain ⟨c, graded, hrow⟩ := h.rows k (hv ▸ hk)
    exact ⟨c, graded, hv ▸ hrow.vector, hrow.grade, hrow.passed, hs ▸ hrow.stored,
      hd ▸ hrow.credited⟩
  index d hmem := hv ▸ h.index d (hd ▸ hmem)

theorem recorded_init (db : FaultTable) : Recorded core ctx { db := db } :=
  ⟨rfl, fun _ hk => absurd hk (by simp), by simp⟩

theorem mem_recordDetections {index : ℕ} {d : ℕ × ℕ} (ids : List ℕ) (detections : List (ℕ × ℕ)) :
    d ∈ ids.foldl (recordDetection index) detections ↔ d ∈ detections ∨ (d.2 = index ∧ d.1 ∈ ids) := by
  induction ids generalizing detections with
  | nil => simp
  | cons id ids ih =>
    have hone : d ∈ recordDetection index detections id ↔ d ∈ detections ∨ d = (id, index) := by
      unfold recordDetection
      split
      · constructor
        · exact .inl
        · rintro (h | rfl) <;> assumption
      · simp
    rw [List.foldl_cons, ih, hone, List.mem_cons, Prod.ext_iff]
    tauto

/-- **The step**: a candidate that passed is committed, and the caller's copy appended. -/
theorem Recorded.append (h : Recorded core ctx s) {c : Candidate} {graded : Graded}
    (hgrade : gradeCandidate core ctx c = .ok graded) (hpassed : graded.passed ≠ [])
    (trackKey : String) : Recorded core ctx ((s.commit graded trackKey).append c.vector) where
  length := by
    show (s.stored ++ _).length = (s.vectors ++ [c.vector]).length
    rw [List.length_append, List.length_append, h.length]
    rfl
  rows k hk := by
    have hk : k < (s.vectors ++ [c.vector]).length := hk
    have hdet : ∀ id, (id, k + 1) ∈ ((s.commit graded trackKey).append c.vector).detections ↔
        (id, k + 1) ∈ s.detections ∨ (k = s.vectors.length ∧ id ∈ graded.passed) := by
      intro id
      refine (mem_recordDetections graded.passed s.detections).trans (or_congr_right ?_)
      exact and_congr_left fun _ => Nat.succ_inj
    rw [List.length_append, List.length_singleton] at hk
    rcases Nat.lt_succ_iff_lt_or_eq.1 hk with hlt | rfl
    · obtain ⟨c', graded', hrow⟩ := h.rows k hlt
      refine ⟨c', graded', ?_, hrow.grade, hrow.passed, ?_, fun id => ?_⟩
      · exact (List.getElem?_append_left hlt).trans hrow.vector
      · exact (List.getElem?_append_left (h.length ▸ hlt)).trans hrow.stored
      · rw [hdet, ← hrow.credited]
        exact or_iff_left fun hk => absurd hk.1 hlt.ne
    · refine ⟨c, graded, List.getElem?_concat_length, hgrade, hpassed, ?_, fun id => ?_⟩
      · show (s.stored ++ [graded.row (s.vectors.length + 1)])[s.vectors.length]? = _
        rw [← h.length]
        exact List.getElem?_concat_length
      · rw [hdet]
        exact (or_iff_right fun hmem => absurd (h.index _ hmem) (by simp)).trans
          (and_iff_right rfl)
  index d hmem := by
    show d.2 ≤ (s.vectors ++ [c.vector]).length
    rw [List.length_append, List.length_singleton]
    rcases (mem_recordDetections graded.passed s.detections).1 hmem with hmem | ⟨hd, -⟩
    · exact (h.index d hmem).trans (Nat.le_succ _)
    · exact hd.le

/-- What `_process_scan_candidate` does. -/
theorem processScanCandidate_cases {c : Candidate} {key : Option String} {out : ScanRunState × Bool}
    (h : processScanCandidate core ctx s c key = .ok out) :
    (out.2 = false ∧ out.1.vectors = s.vectors ∧ out.1.stored = s.stored ∧
      out.1.detections = s.detections) ∨
    ∃ graded trackKey, gradeCandidate core ctx c = .ok graded ∧ graded.passed ≠ [] ∧
      out = (s.commit graded trackKey, true) := by
  obtain ⟨graded, hgrade, h⟩ := Lib.bind_eq_ok.1 h
  split at h
  · cases h
    exact .inl ⟨rfl, rfl, rfl, rfl⟩
  · rename_i hne
    cases h
    exact .inr ⟨graded, _, hgrade, by simpa using hne, rfl⟩

end Recorded

/-! ## A whole campaign -/

section Run

variable {core : ScanCore} {cfg : AtpgConfig} {ctx : PipelineContext} {modelId : String}
  {preflight : Option PreflightData} {rows : List (ℕ × CompactFault)} {s s' : ScanRunState}
  {rs rs' : ScanRoundState} {row : ℕ × CompactFault} {index : ℕ}

theorem gradeRandomVector_recorded {vector : PiMap} (hrec : Recorded core.toPipelineCore ctx s)
    (h : gradeRandomVector core ctx rows s vector = .ok s') :
    Recorded core.toPipelineCore ctx s' := by
  obtain ⟨out, hout, h⟩ := Lib.bind_eq_ok.1 h
  cases h
  have hstart : Recorded core.toPipelineCore ctx s.countGenerated := hrec.congr rfl rfl rfl
  rcases processScanCandidate_cases hout with ⟨hfalse, hv, hs, hd⟩ | ⟨graded, key, hgrade, hp, rfl⟩
  · rw [hfalse]
    exact hstart.congr hv hs hd
  · exact hstart.append hgrade hp key

theorem gradeRandomVectors_recorded {denominator : ℕ} {vectors : List PiMap}
    {out : ScanRunState × List PiMap} (hrec : Recorded core.toPipelineCore ctx s)
    (h : gradeRandomVectors core cfg ctx rows denominator s vectors = .ok out) :
    Recorded core.toPipelineCore ctx out.1 := by
  induction vectors generalizing s with
  | nil =>
    cases h
    exact hrec
  | cons vector rest ih =>
    obtain ⟨s', hs', h⟩ := Lib.bind_eq_ok.1 h
    have hrec' := gradeRandomVector_recorded hrec hs'
    split at h
    · cases h
      exact hrec'
    · exact ih hrec' h

theorem scanRandomPhase_recorded (hrec : Recorded core.toPipelineCore ctx s)
    (h : scanRandomPhase core cfg ctx s = .ok s') : Recorded core.toPipelineCore ctx s' := by
  obtain ⟨graded, hgraded, h⟩ := Lib.bind_eq_ok.1 h
  cases h
  have hstart : Recorded core.toPipelineCore ctx { s with
      seenPatterns := (freshVectors ctx s.seenPatterns
        (generateRandomVectors core.randomBit ctx.inputOrder cfg.randomVectors)).2 } :=
    hrec.congr rfl rfl rfl
  exact (gradeRandomVectors_recorded hstart hgraded).congr rfl rfl rfl

variable {plan : SatPlan}

theorem handleSat_recorded {solved : PiMap × PiMap}
    (hrec : Recorded core.toPipelineCore ctx rs.toScanRunState)
    (h : handleSat core ctx plan rs row solved = .ok rs') :
    Recorded core.toPipelineCore ctx rs'.toScanRunState := by
  unfold handleSat at h
  dsimp only at h
  split at h
  · cases h
    exact hrec.congr rfl rfl rfl
  obtain ⟨out, hout, h⟩ := Lib.bind_eq_ok.1 h
  cases h
  rcases processScanCandidate_cases hout with ⟨hfalse, hv, hs, hd⟩ | ⟨graded, key, hgrade, hp, rfl⟩
  · rw [hfalse]
    exact hrec.congr hv hs hd
  · have hstart : Recorded core.toPipelineCore ctx { rs.toScanRunState with stats :=
        { rs.stats with
          sat := rs.stats.sat + 1, generatedVectors := rs.stats.generatedVectors + 1 } } :=
      hrec.congr rfl rfl rfl
    exact (hstart.append hgrade hp key).congr rfl rfl rfl

theorem answerFor_state {id : ℕ} {answer : Atpg.SolveOutcome (PiMap × PiMap) × ScanRoundState}
    (h : answerFor core cfg plan rs id = .ok answer) :
    answer.2.vectors = rs.vectors ∧ answer.2.stored = rs.stored ∧
      answer.2.detections = rs.detections := by
  unfold answerFor at h
  split at h
  · obtain ⟨_, -, h⟩ := Lib.bind_eq_ok.1 h
    cases h
    exact ⟨rfl, rfl, rfl⟩
  · cases h
    exact ⟨rfl, rfl, rfl⟩

theorem processRow_recorded (hrec : Recorded core.toPipelineCore ctx rs.toScanRunState)
    (h : processRow core cfg ctx modelId plan rs row = .ok rs') :
    Recorded core.toPipelineCore ctx rs'.toScanRunState := by
  unfold processRow at h
  split at h
  · cases h
    exact hrec
  obtain ⟨answer, hanswer, h⟩ := Lib.bind_eq_ok.1 h
  obtain ⟨hv, hs, hd⟩ := answerFor_state hanswer
  have hrec := hrec.congr hv hs hd
  unfold handleAnswer at h
  split at h
  · exact handleSat_recorded hrec h
  all_goals
    cases h
    exact hrec.congr rfl rfl rfl

theorem presolve_state {out : ScanRunState × SatPlan} (h : presolve core cfg s rows = .ok out) :
    out.1.vectors = s.vectors ∧ out.1.stored = s.stored ∧ out.1.detections = s.detections := by
  unfold presolve at h
  split at h
  · obtain ⟨results, -, h⟩ := Lib.bind_eq_ok.1 h
    cases h
    exact ⟨rfl, rfl, rfl⟩
  · cases h
    exact ⟨rfl, rfl, rfl⟩

theorem scanSatPhase_recorded (hrec : Recorded core.toPipelineCore ctx s)
    (h : scanSatPhase core cfg ctx modelId preflight s = .ok rs) :
    Recorded core.toPipelineCore ctx rs.toScanRunState := by
  obtain ⟨ready, hready, h⟩ := Lib.bind_eq_ok.1 h
  obtain ⟨hv, hs, hd⟩ := presolve_state hready
  refine Lib.foldlM_invariant
    (fun rs : ScanRoundState => Recorded core.toPipelineCore ctx rs.toScanRunState) h ?_ ?_
  · exact hrec.congr hv hs hd
  · exact fun row _ rs rs' hrs hstep => processRow_recorded hrs hstep

theorem scanRound_recorded {out : ScanRunState × Option Terminal}
    (hrec : Recorded core.toPipelineCore ctx s)
    (h : scanRound core cfg ctx modelId preflight s index = .ok out) :
    Recorded core.toPipelineCore ctx out.1 := by
  have hstart : Recorded core.toPipelineCore ctx
      { s with stats := { s.stats with rounds := index } } := hrec.congr rfl rfl rfl
  unfold scanRound at h
  dsimp only at h
  split at h
  · cases h
    exact hstart
  obtain ⟨filled, hfilled, h⟩ := Lib.bind_eq_ok.1 h
  have hrec' : Recorded core.toPipelineCore ctx filled := by
    unfold scanFillPhase at hfilled
    split at hfilled
    · exact scanRandomPhase_recorded hstart hfilled
    · cases hfilled
      exact hstart
  split at h
  · cases h
    exact hrec'
  obtain ⟨rs, hrs, h⟩ := Lib.bind_eq_ok.1 h
  cases h
  exact scanSatPhase_recorded hrec' hrs

theorem scanRounds_recorded {n : ℕ} {out : ScanRunState × Terminal}
    (hrec : Recorded core.toPipelineCore ctx s)
    (h : scanRounds core cfg ctx modelId preflight n index s = .ok out) :
    Recorded core.toPipelineCore ctx out.1 := by
  induction n generalizing index s with
  | zero =>
    cases h
    exact hrec.congr rfl rfl rfl
  | succ n ih =>
    obtain ⟨r, hr, h⟩ := Lib.bind_eq_ok.1 h
    have hrec' := scanRound_recorded hrec hr
    split at h
    · cases h
      exact hrec'.congr rfl rfl rfl
    · cases h
      exact hrec'
    · exact ih hrec' h

/-- What a campaign returns is recorded. -/
theorem runProgressiveScanAtpg_recorded {scanWbr : Bool} {db : FaultTable}
    {r : ScanRunState × Terminal}
    (h : runProgressiveScanAtpg core cfg ctx scanWbr modelId preflight db = .ok r) :
    Recorded core.toPipelineCore ctx r.1 := by
  obtain ⟨_, -, h⟩ := Lib.bind_eq_ok.1 h
  obtain ⟨r', hr, h⟩ := Lib.bind_eq_ok.1 h
  split at h
  · cases h
  · cases h
    exact scanRounds_recorded (recorded_init _) hr

end Run

/-- The launch frame that is stored is that of the vector graded. -/
theorem launchFrame_row {core : PipelineCore} {ctx : PipelineContext} {c : Candidate} {v : PiMap}
    {graded : Graded} (h : gradeUnder core ctx c v = .ok graded) (index : ℕ) :
    (graded.row index).launchFrame ctx = patternKey v ctx.inputOrder := by
  obtain ⟨frames, hframes, h⟩ := Lib.bind_eq_ok.1 h
  have hkey : (if ctx.transition then frames.launchPattern else frames.pattern) =
      patternKey v ctx.inputOrder := by
    obtain ⟨_, -, hframes⟩ := Lib.bind_eq_ok.1 hframes
    split at hframes
    · rename_i htransition
      obtain ⟨_, -, hframes⟩ := Lib.bind_eq_ok.1 hframes
      obtain ⟨_, -, hframes⟩ := Lib.bind_eq_ok.1 hframes
      cases hframes
      rw [if_pos htransition]
    · rename_i htransition
      cases hframes
      rw [if_neg htransition]
  have hgraded : graded.frames = frames := by
    obtain ⟨_, -, h⟩ := Lib.bind_eq_ok.1 h
    obtain ⟨_, -, h⟩ := Lib.bind_eq_ok.1 h
    obtain ⟨_, -, h⟩ := Lib.bind_eq_ok.1 h
    split at h
    · cases h
      rfl
    · obtain ⟨_, -, h⟩ := Lib.bind_eq_ok.1 h
      cases h
      rfl
  rw [StoredVector.launchFrame, Graded.row, hgraded, hkey]

/-- **The rows of a scan campaign.**  There are as many stored patterns as returned vectors.
Row `k` of both belongs to one candidate, which was graded under the vector applied for it: the
stored launch frame is that vector, the detections of index `k + 1` are the faults it passed for,
and the returned row encodes it iff the candidate respects the holds. -/
theorem runProgressiveScanAtpg_rows (core : ScanCore) (cfg : AtpgConfig) (ctx : PipelineContext)
    (scanWbr : Bool) (modelId : String) (preflight : Option PreflightData) (db : FaultTable)
    (r : ScanRunState × Terminal)
    (h : runProgressiveScanAtpg core cfg ctx scanWbr modelId preflight db = .ok r) :
    r.1.stored.length = r.1.vectors.length ∧
      ∀ k < r.1.vectors.length, ∃ c graded row,
        r.1.vectors[k]? = some c.vector ∧ r.1.stored[k]? = some row ∧ row.vectorIndex = k + 1 ∧
        gradeUnder core.toPipelineCore ctx c (ctx.applied c.vector) = .ok graded ∧
        (∀ id, (id, k + 1) ∈ r.1.detections ↔ id ∈ graded.passed) ∧
        row.launchFrame ctx = patternKey (ctx.applied c.vector) ctx.inputOrder ∧
        (Encodes ctx.inputOrder c.vector (ctx.applied c.vector) ↔ ctx.RespectsHolds c.vector) := by
  have hrec := runProgressiveScanAtpg_recorded h
  refine ⟨hrec.length, fun k hk => ?_⟩
  obtain ⟨c, graded, hrow⟩ := hrec.rows k hk
  exact ⟨c, graded, graded.row (k + 1), hrow.vector, hrow.stored, rfl, hrow.grade, hrow.credited,
    launchFrame_row hrow.grade (k + 1), encodes_applied_iff ctx c.vector⟩

/-! ## A flip-flop with a reset -/

/-- The cells that the tool inserts, under both names. -/
def stitchedCells : CellMap where
  patterns := CellLibraries.toolCells ++ CellLibraries.escapedToolCells
  parsed := by decide +kernel

/-- A flip-flop that `RESET_B` clears while it is low, and the scan cell for it. -/
def resetFlopCells : RawCellMap :=
  let clear : ControlMeta := .obj { pin := some "RESET_B", level := some "LOW", value := some 0 }
  TreeMap.ofList
    [("dfrtp", ({ nodeType := "FF"
                  ff := some { clock := some "CLK", data := some "D", output := some "Q"
                               trigger := some "POSEDGE", clear := some clear } } : CellEntry)),
     ("$scanff_r_faultflow", { nodeType := "FF", ff := some { clear := some clear } })]

/-- Such a flip-flop on the inputs `a` and `rst_n`. -/
def resetFlop : Module :=
  { ports := TreeMap.ofList [("a", ({ direction := "input", bits := [.net 2] } : Port)),
      ("ck", { direction := "input", bits := [.net 3] }),
      ("rst_n", { direction := "input", bits := [.net 4] }),
      ("q", { direction := "output", bits := [.net 5] })]
    cells := TreeMap.ofList
      [("f", Cell.ofPins "dfrtp" [("D", 2), ("CLK", 3), ("RESET_B", 4), ("Q", 5)])] }

/-- The stitched netlist, and its plan. -/
def resetFlopStitched : Module × ScanPlan :=
  Lib.resultOf (stitchScan resetFlop resetFlopCells 1 none "si" "so" "se") (by decide +kernel)

/-- The view, and its pseudo-ports. -/
def resetFlopView : Module × TreeMap String ViewEntry :=
  Lib.resultOf (buildScanAtpgView resetFlopStitched.1 resetFlopStitched.2 none) (by decide +kernel)

/-- The graph of the stitched netlist. -/
def resetFlopGraph : CachedGraph :=
  .load (Lib.resultOf resetFlopStitched.1.parse (by decide +kernel)) stitchedCells "fail" ∅
    (by decide +kernel) (by decide +kernel)

/-- The graph of the view. -/
def resetFlopViewGraph : CachedGraph :=
  .load (Lib.resultOf resetFlopView.1.parse (by decide +kernel)) stitchedCells "fail" ∅
    (by decide +kernel) (by decide +kernel)

/-- The context of a stuck-at campaign. -/
def resetFlopContext : PipelineContext :=
  { inputOrder := ["__ppi_f", "a", "rst_n"]
    manifest := { chains := [{ index := some 0, length := some 1 }], maxChainLength := some 1 }
    scanInputs := ["si"], scanOutputs := ["so"], scanEnable := "se"
    pseudoPorts := resetFlopView.2.values.map ViewEntry.toPseudoPort
    functionalOutputOrder := ["q"]
    siteKeys := TreeMap.ofList [(1, "net:2:stem")]
    qStemSiteKeys := ["net:5:stem"]
    qStemToPpo := TreeMap.ofList [("net:5:stem", "__ppo_f")]
    resetPiHolds := scanResetPiHolds resetFlopStitched.1 resetFlopCells
    clockPorts := ["ck"] }

/-- The simulators of the two graphs, with a generator that draws `bit`. -/
def resetFlopCore (bit : Bool) : ScanCore :=
  { pipelineCore resetFlopViewGraph resetFlopGraph ["__ppi_f", "a", "rst_n"] 1 1 with
    solve := fun _ _ _ _ => .ok { result := .UNKNOWN, out := none }
    coneSize := fun _ => 0
    randomBit := fun _ => bit }

/-- The input `a`, stuck at the value that is not drawn. -/
def resetFlopFaults (bit : Bool) : FaultTable :=
  TreeMap.ofList [(1, ({ fault := { netIndex := 0, type := if bit then .SA0 else .SA1 }
                         netId := 2 } : FaultRow))]

/-- A campaign of one random vector. -/
def resetFlopRun (bit : Bool) : Except PipelineError (ScanRunState × Terminal) :=
  runProgressiveScanAtpg (resetFlopCore bit) { randomVectors := 1, randomOnly := true }
    resetFlopContext false "model" none (resetFlopFaults bit)

theorem resetFlopRun_isOk : ∀ bit, (resetFlopRun bit).isOk = true := by decide +kernel

/-- What it returns. -/
def resetFlopResult (bit : Bool) : ScanRunState :=
  (Lib.resultOf (resetFlopRun bit) (resetFlopRun_isOk bit)).1

/-- The two campaigns: the vectors they return, the patterns they store, what they credit, and
what the view detects under the vectors returned. -/
theorem resetFlopResult_tables : ∀ bit,
    (resetFlopResult bit).vectors.map (fun v => patternKey v resetFlopContext.inputOrder) =
        (if bit then ["111"] else ["000"]) ∧
      (resetFlopResult bit).stored.map StoredVector.pattern =
        (if bit then ["111"] else ["001"]) ∧
      (resetFlopResult bit).detections = [(1, 1)] ∧
      ((resetFlopResult bit).vectors.map fun v =>
        ((resetFlopCore bit).tentative (activeRows (resetFlopFaults bit)) v).toOption) =
        (if bit then [some [1]] else [some []]) ∧
      ((resetFlopResult bit).vectors.all fun v => resetFlopContext.inputOrder.all fun name =>
        (resetFlopContext.holds[name]?).all fun b => v.getD name false == b) = bit := by
  decide +kernel

/-- The vector `111` has the reset at its held value: what is returned is what was graded. -/
theorem resetFlopRun_rows : ∃ c : Candidate, (resetFlopResult true).vectors[0]? = some c.vector ∧
    Encodes resetFlopContext.inputOrder c.vector (resetFlopContext.applied c.vector) := by
  obtain ⟨hvectors, -, -, -, hholds⟩ := resetFlopResult_tables true
  obtain ⟨-, hrows⟩ := runProgressiveScanAtpg_rows _ _ _ _ _ _ _ _
    (Lib.eq_ok_resultOf _ (resetFlopRun_isOk true))
  have hlength : 0 < (resetFlopResult true).vectors.length := by
    rw [← List.length_map (f := fun v => patternKey v resetFlopContext.inputOrder), hvectors]
    decide
  obtain ⟨c, graded, row, hvector, -, -, -, -, -, hencodes⟩ := hrows 0 hlength
  have hvector : (resetFlopResult true).vectors[0]? = some c.vector := hvector
  refine ⟨c, hvector, hencodes.2 fun name hname hmem value hhold => ?_⟩
  have hheld := List.all_eq_true.1 (List.all_eq_true.1 hholds _ (List.mem_of_getElem? hvector))
    name hname
  rw [hhold] at hheld
  simpa using hheld

/-- **The returned vector is not the one that was graded.**  The vector `000` is drawn.  It is
graded and stored as `001`, with the reset held, and `a` stuck at 1 is credited to it.  The vector
returned is `000`, under which the view detects nothing. -/
theorem resetFlopRun_returns_ungraded : (resetFlopResult false).detections = [(1, 1)] ∧
    (resetFlopResult false).stored.map StoredVector.pattern = ["001"] ∧
    (resetFlopResult false).vectors.map (fun v => patternKey v resetFlopContext.inputOrder) =
      ["000"] ∧
    ((resetFlopResult false).vectors.map fun v =>
      ((resetFlopCore false).tentative (activeRows (resetFlopFaults false)) v).toOption) =
      [some []] := by
  obtain ⟨hvectors, hstored, hdetections, htentative, -⟩ := resetFlopResult_tables false
  exact ⟨hdetections, hstored, hvectors, htentative⟩

end FaultFlow.Scan
