/-
# Grading new vectors

`simulate_incremental` of `src/core/atpg/progressive_atpg.cpp`.  The faults of a request that
are still open are graded against one new vector after the other, in batches of 63, and a
detected fault is dropped.  The batches of a vector are shared among threads: every thread
grades a slice of the list that starts at a multiple of 63, and the slices are merged in order.

A lane does not depend on its batch (`Sim.LaneLocality`), so how the list is cut makes no
difference (`gradeActiveParallel_slices`): a fault is reported with the first vector that detects
it (`detections_eq`).

Threads write to their own results and nothing else, so a slice is a value here.  Left out is the
count of batches, which is only reported.
-/

import FaultFlow.IR.NetNames
import FaultFlow.Lib.Dropping
import FaultFlow.Lib.Tiling
import FaultFlow.Runner.ProgressiveAtpg
import FaultFlow.Sim.LaneLocality

namespace FaultFlow.Grading

open Lib Runner
open Std (TreeMap)

/-! ## The request -/

/-- `vector_from_map`: the inputs in order, an input that the vector does not name at `0`, and
then the other names of the vector. -/
def vectorFromMap (parsed : ParsedModule) (values : PiMap) (inputOrder : List String) :
    Except FlowError TestVector := do
  let extra := values.toList.filter fun p => !inputOrder.contains p.1
  let entries := inputOrder.map (fun name => (name, values.getD name false)) ++ extra
  let inputs ← entries.foldlM (fun (inputs : TreeMap YosysNetID Bool) p => do
    let net ← parsed.netIdByName p.1
    return inputs.insert net p.2) ∅
  return { inputs := inputs }

variable (g : CachedGraph) (mode : TestMode)

/-- `load_graph`, which refuses flip-flops. -/
def requireCombinational : Except FlowError Unit :=
  if g.cg.ffNodes = [] then .ok ()
  else .error (.runtimeError "progressive native ATPG is combinational-only")

/-- The word of detected lanes of a batch, under a test mode where there are wrapper cells. -/
def gradeBatchWord (vec : TestVector) (batch : FaultBatch) : Word :=
  if mode ≠ .FUNCTIONAL ∧ g.cg.wrapperCells ≠ [] then
    BitParallel.simulateBatchMode g.cg vec batch (buildModeConfig g.cg mode)
  else BitParallel.simulateBatch g.cg vec batch

/-! ## One vector -/

/-- `kFaultLanesPerWord`. -/
def faultLanesPerWord : ℕ := 63

/-- `make_batch`: the faults of a span. -/
def makeBatch (active : List (ℕ × CompactFault)) (first last : ℕ) : FaultBatch :=
  .ofFaults ((active.extract first last).map Prod.snd)

/-- The faults of a span next to their lanes and their indices. -/
def batchLanes (active : List (ℕ × CompactFault)) (first last : ℕ) :
    List (((ℕ × CompactFault) × CompactFault) × ℕ) :=
  ((active.extract first last).zip (makeBatch active first last).faults).zipIdx first

/-- `GradeRangeResult`. -/
structure GradeRangeResult where
  detectedIndices : List ℕ := []
  stillActive : List (ℕ × CompactFault) := []

section Grade

variable (grade : FaultBatch → Word) (active : List (ℕ × CompactFault))

/-- One batch of `grade_batch_range`. -/
def gradeBatch (first last : ℕ) : GradeRangeResult :=
  let detectedMask := grade (makeBatch active first last)
  let lanes := batchLanes active first last
  { detectedIndices := (lanes.filter fun p => detectedMask &&& p.1.2.saMask != 0#64).map
      fun p => p.2
    stillActive := (lanes.filter fun p => !(detectedMask &&& p.1.2.saMask != 0#64)).map
      fun p => p.1.1 }

/-- `grade_batch_range`: the batches of a span one after the other. -/
def gradeBatchRange (first last : ℕ) : GradeRangeResult :=
  (List.range ((last - first + faultLanesPerWord - 1) / faultLanesPerWord)).foldl
    (fun r k =>
      let begin := first + k * faultLanesPerWord
      let s := gradeBatch grade active begin (min (begin + faultLanesPerWord) last)
      { detectedIndices := r.detectedIndices ++ s.detectedIndices
        stillActive := r.stillActive ++ s.stillActive }) {}

variable (hardware : ℕ) (simThreads : ℤ)

/-- `effective_sim_threads`; `hardware` is what `std::thread::hardware_concurrency` returns. -/
def effectiveSimThreads : ℕ :=
  if 0 < simThreads then simThreads.toNat else if hardware = 0 then 1 else hardware

/-- The threads that have a batch. -/
def sliceThreads (numBatches : ℕ) : ℕ :=
  if numBatches = 0 then 1 else min (effectiveSimThreads hardware simThreads) numBatches

/-- The slices of a list of `n` faults. -/
def slices (n : ℕ) : List (ℕ × ℕ) :=
  let numBatches := (n + faultLanesPerWord - 1) / faultLanesPerWord
  let threads := sliceThreads hardware simThreads numBatches
  if threads ≤ 1 then [(0, n)]
  else
    let base := numBatches / threads
    let rem := numBatches % threads
    (List.range threads).map fun t =>
      let loBatch := t * base + min t rem
      let hiBatch := loBatch + base + if t < rem then 1 else 0
      (loBatch * faultLanesPerWord, min (hiBatch * faultLanesPerWord) n)

/-- `grade_active_parallel`. -/
def gradeActiveParallel : List GradeRangeResult :=
  (slices hardware simThreads active.length).map fun p => gradeBatchRange grade active p.1 p.2

end Grade

/-! ## The vectors -/

/-- What the loop over the vectors carries. -/
structure GradingState where
  active : List (ℕ × CompactFault)
  detections : List (ℕ × ℤ) := []
  db : FaultTable

/-- One vector, with its index: the slices are merged in order, and the faults detected are
written. -/
def gradeVector (vectorStartIndex : ℤ) (hardware : ℕ) (simThreads : ℤ) (st : GradingState)
    (p : TestVector × ℕ) : GradingState :=
  if st.active = [] then st
  else
    let results := gradeActiveParallel (gradeBatchWord g mode p.1) st.active hardware simThreads
    let detected := results.flatMap fun r =>
      r.detectedIndices.filterMap fun idx => st.active[idx]?.map Prod.fst
    { active := results.flatMap GradeRangeResult.stillActive
      detections := st.detections ++ detected.map fun id => (id, vectorStartIndex + p.2)
      db := detected.foldl FaultTable.markDetected st.db }

/-- `simulate_incremental`: the detections, and the table. -/
def simulateIncremental (db : FaultTable) (newVectors : List PiMap) (inputOrder : List String)
    (faultIds : List ℕ) (vectorStartIndex : ℤ) (mode : TestMode) (hardware : ℕ) (simThreads : ℤ) :
    Except RunnerError (List (ℕ × ℤ) × FaultTable) :=
  if newVectors = [] ∨ faultIds = [] then .ok ([], db)
  else do
    let vectors ← (do
      requireCombinational g
      newVectors.mapM fun raw => vectorFromMap g.parsed raw inputOrder).mapError RunnerError.core
    let active ← loadActiveFaultRecords db faultIds
    let st := vectors.zipIdx.foldl (gradeVector g mode vectorStartIndex hardware simThreads)
      { active := active, db := db }
    return (st.detections, st.db)

/-! ## How the list is cut makes no difference -/

/-- The vector detects the fault, graded alone. -/
def detects (vec : TestVector) (f : CompactFault) : Bool :=
  lane 1 (gradeBatchWord g mode vec (BitParallel.singleBatch f))

/-- In every batch, the lane of a fault holds the verdict on the fault. -/
def LaneWise (grade : FaultBatch → Word) (verdict : CompactFault → Bool) : Prop :=
  ∀ {b : FaultBatch} {i : ℕ} {f f' : CompactFault}, b.WellFormed → i < 64 → b.InLane i f →
    f.netIndex = f'.netIndex → f.type = f'.type → f'.exclusion = .NONE →
      lane i (grade b) = verdict f'

theorem laneWise_gradeBatchWord (g : CachedGraph) (mode : TestMode) (vec : TestVector) :
    LaneWise (gradeBatchWord g mode vec) (detects g mode vec) := by
  intro b i f f' hb hi hf hnet htype hexcl
  simp only [gradeBatchWord, detects]
  split
  · exact BitParallel.lane_simulateBatchMode_alone hb hi hf hnet htype hexcl g.cg vec _
  · exact BitParallel.lane_simulateBatch_alone hb hi hf hnet htype hexcl g.cg vec

section Cuts

variable {grade : FaultBatch → Word} {verdict : CompactFault → Bool}
  {active : List (ℕ × CompactFault)} {first last : ℕ}

theorem length_makeBatch : (makeBatch active first last).faults.length =
    (active.extract first last).length := by
  simp [makeBatch, FaultBatch.ofFaults]

theorem length_extract_le (l : List (ℕ × CompactFault)) (first last : ℕ) :
    (l.extract first last).length ≤ last - first := by
  rw [List.extract_eq_take_drop]
  exact List.length_take_le _ _

theorem wellFormed_makeBatch (hopen : ∀ record ∈ active, record.2.exclusion = .NONE)
    (hlast : last - first ≤ 63) : (makeBatch active first last).WellFormed := by
  have hlen := length_extract_le active first last
  refine FaultBatch.wellFormed_ofFaults (fun f hf => ?_) (by rw [List.length_map]; omega)
  obtain ⟨record, hrecord, rfl⟩ := List.mem_map.1 hf
  rw [List.extract_eq_take_drop] at hrecord
  exact hopen record (List.mem_of_mem_drop (List.mem_of_mem_take hrecord))

theorem of_mem_batchLanes {p : ((ℕ × CompactFault) × CompactFault) × ℕ}
    (h : p ∈ batchLanes active first last) :
    ∃ k < last - first, active[p.2]? = some p.1.1 ∧
      (makeBatch active first last).InLane (k + 1) p.1.2 ∧
      p.1.2.netIndex = p.1.1.2.netIndex ∧ p.1.2.type = p.1.1.2.type := by
  obtain ⟨hle, hp⟩ := List.mk_mem_zipIdx_iff_le_and_getElem?_sub.1 h
  obtain ⟨hrecord, hfault⟩ := List.getElem?_zip_eq_some.1 hp
  have hrecord' : ((active.extract first last).map Prod.snd)[p.2 - first]? = some p.1.1.2 := by
    rw [List.getElem?_map, hrecord, Option.map_some]
  rw [makeBatch, FaultBatch.getElem?_ofFaults, hrecord', Option.map_some] at hfault
  have hlt := (List.getElem?_eq_some_iff.1 hrecord).1
  have hlen := length_extract_le active first last
  refine ⟨p.2 - first, by omega, ?_, ?_⟩
  · rw [List.extract_eq_take_drop, List.getElem?_take_of_lt (by omega),
      List.getElem?_drop] at hrecord
    rwa [show first + (p.2 - first) = p.2 by omega] at hrecord
  · rw [← Option.some.inj hfault]
    exact ⟨FaultBatch.inLane_ofFaults hrecord', rfl, rfl⟩

theorem map_batchLanes :
    (batchLanes active first last).map (fun p => p.1.1) = active.extract first last :=
  calc (batchLanes active first last).map (fun p => p.1.1)
      = ((batchLanes active first last).map Prod.fst).map Prod.fst := (List.map_map ..).symm
    _ = active.extract first last := by
      rw [batchLanes, List.zipIdx_map_fst, List.map_fst_zip (by rw [length_makeBatch])]

/-- The records that a result says are detected. -/
def GradeRangeResult.detected (active : List (ℕ × CompactFault)) (r : GradeRangeResult) :
    List (ℕ × CompactFault) :=
  r.detectedIndices.filterMap fun idx => active[idx]?

/-- **A batch reports the faults of its span that the vector detects**, and keeps the others. -/
theorem gradeBatch_eq (hgrade : LaneWise grade verdict)
    (hopen : ∀ record ∈ active, record.2.exclusion = .NONE) (first last : ℕ)
    (hlast : last - first ≤ 63) :
    (gradeBatch grade active first last).detected active =
        (active.extract first last).filter (fun record => verdict record.2) ∧
      (gradeBatch grade active first last).stillActive =
        (active.extract first last).filter fun record => !verdict record.2 := by
  have hhit : ∀ p ∈ batchLanes active first last,
      (grade (makeBatch active first last) &&& p.1.2.saMask != 0#64) = verdict p.1.1.2 := by
    intro p hp
    obtain ⟨k, hk, hrecord, hin, hnet, htype⟩ := of_mem_batchLanes hp
    rw [← hgrade (wellFormed_makeBatch hopen hlast) (by omega) hin hnet htype
      (hopen _ (List.mem_of_getElem? hrecord)), hin.2, Bool.eq_iff_iff, bne_iff_ne,
      laneMask_and_ne_zero (by omega)]
  rw [← map_batchLanes]
  constructor
  · rw [GradeRangeResult.detected, gradeBatch, List.filterMap_map]
    refine Eq.trans ?_ (map_filter_eq_filter_map hhit)
    rw [← List.filterMap_eq_map]
    refine List.filterMap_congr fun p hp => ?_
    obtain ⟨k, -, hrecord, -⟩ := of_mem_batchLanes (List.mem_of_mem_filter hp)
    exact hrecord
  · exact map_filter_eq_filter_map fun p hp => congrArg (fun b => !b) (hhit p hp)

theorem gradeBatchRange_eq_flatMap (first last : ℕ) :
    let pieces := List.range ((last - first + faultLanesPerWord - 1) / faultLanesPerWord)
    let result := fun k => gradeBatch grade active (first + k * faultLanesPerWord)
      (min (first + k * faultLanesPerWord + faultLanesPerWord) last)
    gradeBatchRange grade active first last =
      { detectedIndices := pieces.flatMap fun k => (result k).detectedIndices
        stillActive := pieces.flatMap fun k => (result k).stillActive } := by
  simp only [gradeBatchRange]
  generalize (last - first + faultLanesPerWord - 1) / faultLanesPerWord = n
  induction n with
  | zero => rfl
  | succ n ih =>
    rw [List.range_succ, List.foldl_append, List.flatMap_append, List.flatMap_append, ih]
    simp

/-- **A span reports the faults that the vector detects**, and keeps the others. -/
theorem gradeBatchRange_eq (hgrade : LaneWise grade verdict)
    (hopen : ∀ record ∈ active, record.2.exclusion = .NONE) (first last : ℕ) (hle : first ≤ last) :
    (gradeBatchRange grade active first last).detected active =
        (active.extract first last).filter (fun record => verdict record.2) ∧
      (gradeBatchRange grade active first last).stillActive =
        (active.extract first last).filter fun record => !verdict record.2 := by
  have hbatch : ∀ k : ℕ, _ := fun k => gradeBatch_eq hgrade hopen (first + k * faultLanesPerWord)
    (min (first + k * faultLanesPerWord + faultLanesPerWord) last)
    (by simp only [faultLanesPerWord]; omega)
  rw [gradeBatchRange_eq_flatMap, ← flatMap_pieces active (w := faultLanesPerWord) (by decide) hle,
    List.filter_flatMap, List.filter_flatMap,
    GradeRangeResult.detected, List.filterMap_flatMap]
  exact ⟨List.flatMap_congr fun k _ => (hbatch k).1, List.flatMap_congr fun k _ => (hbatch k).2⟩

/-- **The slices are consecutive**: each starts at a multiple of 63, where the one before it
ends. -/
theorem exists_bounds (hardware : ℕ) (simThreads : ℤ) (n : ℕ) : ∃ (f : ℕ → ℕ) (threads : ℕ),
    Monotone f ∧ f 0 = 0 ∧ f threads = n ∧ (∀ t < threads, 63 ∣ f t) ∧
      slices hardware simThreads n = (List.range threads).map fun t => (f t, f (t + 1)) := by
  simp only [slices]
  split
  case isTrue =>
    refine ⟨fun t => if t = 0 then 0 else n, 1, ?_, rfl, rfl, ?_, rfl⟩
    · refine monotone_nat_of_le_succ fun t => ?_
      split <;> simp
    · intro t ht
      obtain rfl : t = 0 := by omega
      exact Nat.dvd_zero _
  case isFalse hthreads =>
    generalize hnum : (n + faultLanesPerWord - 1) / faultLanesPerWord = numBatches at *
    generalize heff : sliceThreads hardware simThreads numBatches = threads at *
    have hle : threads ≤ numBatches := by
      rw [← heff, sliceThreads] at hthreads ⊢
      split at hthreads <;> split <;> omega
    simp only [faultLanesPerWord] at hnum ⊢
    -- a thread has a batch of its own
    have hbase : 0 < numBatches / threads := Nat.div_pos hle (by omega)
    have hbound : ∀ t < threads, share numBatches threads t * 63 ≤ n := by
      intro t ht
      have hsucc := share_succ numBatches threads t
      have hlast := share_monotone numBatches threads (show t + 1 ≤ threads from ht)
      rw [share_last (by omega)] at hlast
      omega
    refine ⟨fun t => min (share numBatches threads t * 63) n, threads, ?_, ?_, ?_, ?_, ?_⟩
    · intro t t' h
      have := Nat.mul_le_mul_right 63 (share_monotone numBatches threads h)
      simp only
      omega
    · simp [share_zero]
    · simp only [share_last (show 0 < threads by omega)]
      omega
    · intro t ht
      simp only [Nat.min_eq_left (hbound t ht)]
      exact Dvd.intro_left _ rfl
    · refine List.map_congr_left fun t ht => ?_
      simp only [Nat.min_eq_left (hbound t (List.mem_range.1 ht)), share_succ]
      rfl

/-- The slices make up the list. -/
theorem flatMap_slices (hardware : ℕ) (simThreads : ℤ) (l : List (ℕ × CompactFault)) :
    ((slices hardware simThreads l.length).flatMap fun p => l.extract p.1 p.2) = l := by
  obtain ⟨f, threads, hmono, hzero, hlast, -, hslices⟩ := exists_bounds hardware simThreads l.length
  rw [hslices, List.flatMap_map, flatMap_extract l hmono, hzero, hlast]
  simp [List.extract_eq_take_drop]

/-- **Whatever the threads, the vector's detections are reported in the order of the list**, and
the other faults are kept in that order. -/
theorem gradeActiveParallel_eq (hgrade : LaneWise grade verdict)
    (hopen : ∀ record ∈ active, record.2.exclusion = .NONE) (hardware : ℕ) (simThreads : ℤ) :
    ((gradeActiveParallel grade active hardware simThreads).flatMap fun r => r.detected active) =
        active.filter (fun record => verdict record.2) ∧
      ((gradeActiveParallel grade active hardware simThreads).flatMap
          GradeRangeResult.stillActive) =
        active.filter fun record => !verdict record.2 := by
  have hspan : ∀ p ∈ slices hardware simThreads active.length, _ := fun p hp =>
    gradeBatchRange_eq hgrade hopen p.1 p.2 (by
      obtain ⟨f, threads, hmono, -, -, -, hslices⟩ :=
        exists_bounds hardware simThreads active.length
      rw [hslices] at hp
      obtain ⟨t, -, rfl⟩ := List.mem_map.1 hp
      exact hmono (Nat.le_succ t))
  have hall := flatMap_slices hardware simThreads active
  constructor
  · conv_rhs => rw [← hall, List.filter_flatMap]
    rw [gradeActiveParallel, List.flatMap_map]
    exact List.flatMap_congr fun p hp => (hspan p hp).1
  · conv_rhs => rw [← hall, List.filter_flatMap]
    rw [gradeActiveParallel, List.flatMap_map]
    exact List.flatMap_congr fun p hp => (hspan p hp).2

end Cuts

/-! ## A fault is reported with the first vector that detects it -/

/-- The state of the loop, from the faults that are left and those reported. -/
def GradingState.ofDropping (vectorStartIndex : ℤ) (db : FaultTable)
    (d : Dropping (ℕ × CompactFault)) : GradingState where
  active := d.remaining
  detections := d.reports.map fun report => (report.1.1, vectorStartIndex + report.2)
  db := d.reports.foldl (fun db report => db.markDetected report.1.1) db

section Run

variable (vectorStartIndex : ℤ) (hardware : ℕ) (simThreads : ℤ) (db : FaultTable)
  {d : Dropping (ℕ × CompactFault)} {active : List (ℕ × CompactFault)} {faultIds : List ℕ}
  {vectors : List TestVector}

/-- One vector reports what it detects and drops it. -/
theorem gradeVector_ofDropping (hopen : ∀ record ∈ d.remaining, record.2.exclusion = .NONE)
    (p : TestVector × ℕ) :
    gradeVector g mode vectorStartIndex hardware simThreads (.ofDropping vectorStartIndex db d) p =
      .ofDropping vectorStartIndex db (d.step (fun vec record => detects g mode vec record.2) p) := by
  obtain ⟨hdetected, hstill⟩ := gradeActiveParallel_eq
    (laneWise_gradeBatchWord g mode p.1) hopen hardware simThreads
  have hids : ((gradeActiveParallel (gradeBatchWord g mode p.1) d.remaining hardware
      simThreads).flatMap fun r => r.detectedIndices.filterMap fun idx =>
        d.remaining[idx]?.map Prod.fst) =
      (d.remaining.filter fun record => detects g mode p.1 record.2).map Prod.fst := by
    rw [← hdetected, List.map_flatMap]
    exact List.flatMap_congr fun r _ => (List.map_filterMap ..).symm
  simp only [gradeVector, GradingState.ofDropping, Dropping.step, hids, hstill]
  split
  case isTrue hnil => simp [hnil]
  case isFalse => simp [List.foldl_append, List.foldl_map]

theorem foldl_gradeVector (ps : List (TestVector × ℕ))
    (hopen : ∀ record ∈ d.remaining, record.2.exclusion = .NONE) :
    ps.foldl (gradeVector g mode vectorStartIndex hardware simThreads)
        (.ofDropping vectorStartIndex db d) =
      .ofDropping vectorStartIndex db
        (ps.foldl (Dropping.step fun vec record => detects g mode vec record.2) d) := by
  induction ps generalizing d with
  | nil => rfl
  | cons p ps ih =>
    rw [List.foldl_cons, List.foldl_cons, gradeVector_ofDropping g mode _ hardware simThreads db hopen]
    exact ih fun record hrecord => hopen record (List.mem_of_mem_filter hrecord)

/-- The record of an open fault. -/
def openRecord (db : FaultTable) (id : ℕ) : Option (ℕ × CompactFault) :=
  db[id]?.bind fun row => if row.open then some (id, row.fault) else none

theorem exclusion_of_openRecord {db : FaultTable} {id : ℕ} {record : ℕ × CompactFault}
    (h : openRecord db id = some record) : record.1 = id ∧ record.2.exclusion = .NONE := by
  obtain ⟨row, -, hrow⟩ := Option.bind_eq_some_iff.1 h
  split at hrow
  · rename_i hopen
    cases hrow
    simp only [FaultRow.open, FaultRow.inScope, Bool.and_eq_true, decide_eq_true_eq] at hopen
    exact ⟨rfl, hopen.1.1⟩
  · cases hrow

theorem loadActiveFaultRecords_eq {ids : List ℕ} (h : loadActiveFaultRecords db ids = .ok active) :
    active = ids.filterMap (openRecord db) := by
  obtain ⟨rows, hrows, hret⟩ := bind_eq_ok.1 h
  cases hret
  clear h
  induction ids generalizing rows with
  | nil =>
    cases hrows
    rfl
  | cons id ids ih =>
    rw [List.mapM_cons] at hrows
    obtain ⟨row, hrow, hrows⟩ := bind_eq_ok.1 hrows
    obtain ⟨rest, hrest, hret⟩ := bind_eq_ok.1 hrows
    cases hret
    split at hrow
    · rename_i r hr
      cases hrow
      have := ih rest hrest
      rw [List.filterMap_cons, openRecord, hr, Option.bind_some, ← this, List.filter_cons]
      cases r.open <;> rfl
    · cases hrow

variable {newVectors : List PiMap} {inputOrder : List String}

/-- **What the request returns**: every open fault with the first vector that detects it. -/
theorem simulateIncremental_eq :
    simulateIncremental g db newVectors inputOrder faultIds vectorStartIndex mode hardware
        simThreads =
      if newVectors = [] ∨ faultIds = [] then .ok ([], db)
      else do
        let vectors ← (do
          requireCombinational g
          newVectors.mapM fun raw => vectorFromMap g.parsed raw inputOrder).mapError
            RunnerError.core
        let active ← loadActiveFaultRecords db faultIds
        let st := GradingState.ofDropping vectorStartIndex db
          (.run (fun vec record => detects g mode vec record.2) vectors active)
        return (st.detections, st.db) := by
  simp only [simulateIncremental]
  split
  · rfl
  · refine bind_congr fun vectors => ?_
    cases hactive : loadActiveFaultRecords db faultIds with
    | error e => rfl
    | ok active =>
      have hopen : ∀ record ∈ active, record.2.exclusion = .NONE := by
        rw [loadActiveFaultRecords_eq db hactive]
        intro record hrecord
        obtain ⟨id, -, hid⟩ := List.mem_filterMap.1 hrecord
        exact (exclusion_of_openRecord hid).2
      have hrun := foldl_gradeVector g mode vectorStartIndex hardware simThreads db
        vectors.zipIdx (d := { remaining := active }) hopen
      simp only [GradingState.ofDropping, List.map_nil, List.foldl_nil] at hrun
      simp only [bind, Except.bind, hrun]
      rfl

/-- The requests for a fault, among the open faults. -/
theorem filter_openRecords (id : ℕ) (ids : List ℕ) :
    (ids.filterMap (openRecord db)).filter (fun record => record.1 = id) =
      (List.replicate (ids.count id) id).filterMap (openRecord db) := by
  induction ids with
  | nil => rfl
  | cons i ids ih =>
    rw [List.filterMap_cons, List.count_cons]
    by_cases hi : i = id
    · subst hi
      rw [beq_self_eq_true, if_pos rfl, List.replicate_succ, List.filterMap_cons]
      cases hrecord : openRecord db i with
      | none => exact ih
      | some record => simp [(exclusion_of_openRecord hrecord).1, ih]
    · rw [if_neg (by simpa using hi), Nat.add_zero]
      cases hrecord : openRecord db i with
      | none => exact ih
      | some record => simp [(exclusion_of_openRecord hrecord).1, ih, hi]

/-- The vector of a request detects a fault. -/
def rawDetects (inputOrder : List String) (raw : PiMap) (f : CompactFault) : Bool :=
  match vectorFromMap g.parsed raw inputOrder with
  | .ok vec => detects g mode vec f
  | .error _ => false

/-- The first vector of a request that detects a fault. -/
def firstDetecting (inputOrder : List String) (newVectors : List PiMap) (f : CompactFault) :
    Option ℕ :=
  newVectors.findIdx? fun raw => rawDetects g mode inputOrder raw f

theorem findIdx?_detects
    (h : (newVectors.mapM fun raw => vectorFromMap g.parsed raw inputOrder) = .ok vectors)
    (f : CompactFault) : (vectors.findIdx? fun vec => detects g mode vec f) =
      firstDetecting g mode inputOrder newVectors f := by
  rw [firstDetecting]
  induction newVectors generalizing vectors with
  | nil =>
    cases h
    rfl
  | cons raw newVectors ih =>
    rw [List.mapM_cons] at h
    obtain ⟨vec, hvec, h⟩ := bind_eq_ok.1 h
    obtain ⟨rest, hrest, hret⟩ := bind_eq_ok.1 h
    cases hret
    rw [List.findIdx?_cons, List.findIdx?_cons, ih hrest]
    simp only [rawDetects, hvec]

/-- The detections of a fault: one for each request of it, when it is open and detected. -/
theorem filter_detections
    (hvectors : (newVectors.mapM fun raw => vectorFromMap g.parsed raw inputOrder) = .ok vectors)
    (hactive : loadActiveFaultRecords db faultIds = .ok active) (id : ℕ) :
    (GradingState.ofDropping vectorStartIndex db (.run (fun vec record =>
        detects g mode vec record.2) vectors active)).detections.filter (fun p => p.1 = id) =
      match (openRecord db id).bind fun record =>
          firstDetecting g mode inputOrder newVectors record.2 with
      | some k => List.replicate (faultIds.count id) (id, vectorStartIndex + k)
      | none => [] := by
  obtain rfl := loadActiveFaultRecords_eq db hactive
  have hfirst : ∀ record ∈ faultIds.filterMap (openRecord db), decide (record.1 = id) = true →
      (vectors.findIdx? fun vec => detects g mode vec record.2) =
        (openRecord db id).bind fun record =>
          firstDetecting g mode inputOrder newVectors record.2 := by
    intro record hmem hid
    obtain ⟨i, -, hrecord⟩ := List.mem_filterMap.1 hmem
    obtain rfl : i = id := (exclusion_of_openRecord hrecord).1.symm.trans (by simpa using hid)
    rw [findIdx?_detects g mode hvectors, hrecord, Option.bind_some]
  have hreports := Dropping.filter_reports_run (fun (vec : TestVector)
    (record : ℕ × CompactFault) => detects g mode vec record.2)
    (fun record => decide (record.1 = id)) hfirst
  rw [filter_openRecords] at hreports
  simp only [GradingState.ofDropping, List.filter_map, Function.comp_def, hreports]
  cases hrecord : openRecord db id with
  | none => rfl
  | some record =>
    obtain rfl := (exclusion_of_openRecord hrecord).1
    cases hk : firstDetecting g mode inputOrder newVectors record.2 <;> simp [hk, hrecord]

/-- **Grading is exact, whatever the threads.**  The request returns what it returns with one
thread; the slices make up the list of open faults and start at multiples of 63; and an open
fault is reported with the first vector that detects it, once for each time it is requested. -/
theorem simulateIncremental_exact (newVectors : List PiMap) (inputOrder : List String)
    (faultIds : List ℕ) :
    (simulateIncremental g db newVectors inputOrder faultIds vectorStartIndex mode hardware
        simThreads =
      simulateIncremental g db newVectors inputOrder faultIds vectorStartIndex mode hardware 1) ∧
    (∀ active : List (ℕ × CompactFault),
      ((slices hardware simThreads active.length).flatMap fun p => active.extract p.1 p.2) =
        active ∧
      ∀ p ∈ slices hardware simThreads active.length,
        63 ∣ p.1 ∧ (63 ∣ p.2 ∨ p.2 = active.length)) ∧
    ∀ out, simulateIncremental g db newVectors inputOrder faultIds vectorStartIndex mode hardware
        simThreads = .ok out → ∀ id,
      out.1.filter (fun p => p.1 = id) =
        match (openRecord db id).bind fun record =>
            firstDetecting g mode inputOrder newVectors record.2 with
        | some k => List.replicate (faultIds.count id) (id, vectorStartIndex + k)
        | none => [] := by
  refine ⟨?_, fun active => ⟨flatMap_slices hardware simThreads active, ?_⟩, ?_⟩
  · rw [simulateIncremental_eq, simulateIncremental_eq]
  · intro p hp
    obtain ⟨f, threads, -, -, hlast, hdvd, hslices⟩ :=
      exists_bounds hardware simThreads active.length
    rw [hslices] at hp
    obtain ⟨t, ht, rfl⟩ := List.mem_map.1 hp
    have ht' := List.mem_range.1 ht
    refine ⟨hdvd t ht', ?_⟩
    by_cases hend : t + 1 = threads
    · exact .inr (hend ▸ hlast)
    · exact .inl (hdvd (t + 1) (by omega))
  · intro out hout id
    rw [simulateIncremental_eq] at hout
    split at hout
    case isTrue hnone =>
      cases hout
      rcases hnone with rfl | rfl
      · cases openRecord db id <;> rfl
      · cases (openRecord db id).bind fun record =>
          firstDetecting g mode inputOrder newVectors record.2 <;> rfl
    case isFalse =>
      obtain ⟨vectors, hvectors, hout⟩ := bind_eq_ok.1 hout
      obtain ⟨active, hactive, hret⟩ := bind_eq_ok.1 hout
      cases hret
      refine filter_detections g mode vectorStartIndex db ?_ hactive id
      obtain ⟨_, -, hvectors⟩ := bind_eq_ok.1 (eq_ok_of_mapError hvectors)
      exact hvectors

end Run

/-- Two inverters in a row. -/
def inverterPair : CachedGraph :=
  .load (.ofCells [("a", 2)] [("y", 4)]
      [("g", .ofPins "INV" [("A", 2), ("Y", 3)]), ("h", .ofPins "INV" [("A", 3), ("Y", 4)])])
    smallCells "fail" ∅ (by decide +kernel) (by decide +kernel)

/-- The input stuck at either value; the second fault is already detected. -/
def inverterPairTable : FaultTable :=
  TreeMap.ofList [((1 : ℕ), ({ fault := { netIndex := 0, type := .SA1 }, netId := 2 } : FaultRow)),
    (2, { fault := { netIndex := 0 }, netId := 2, status := .detected })]

/-- Both values of the input. -/
def inverterPairVectors : List PiMap :=
  [TreeMap.ofList [("a", true)], TreeMap.ofList [("a", false)]]

/-- The fault stuck at 1 is reported with the second vector, here with three threads. -/
theorem inverterPair_reported :
    ∃ out, simulateIncremental inverterPair inverterPairTable inverterPairVectors ["a"] [1, 2] 10
        .FUNCTIONAL 4 3 = .ok out ∧ out.1.filter (fun p => p.1 = 1) = [(1, 11)] := by
  refine ⟨_, Lib.eq_ok_resultOf _ (by decide +kernel), ?_⟩
  exact ((simulateIncremental_exact inverterPair .FUNCTIONAL 10 4 3 inverterPairTable
    inverterPairVectors ["a"] [1, 2]).2.2 _ (Lib.eq_ok_resultOf _ (by decide +kernel)) 1).trans
    (by decide +kernel)

/-- A fault requested twice is reported twice, and a fault that the table has as detected is not
reported, though the first vector detects it. -/
theorem inverterPair_not_exact :
    (simulateIncremental inverterPair inverterPairTable inverterPairVectors ["a"] [1, 1, 2] 0
        .FUNCTIONAL 4 1).toOption.map Prod.fst = some [(1, 1), (1, 1)] ∧
      rawDetects inverterPair .FUNCTIONAL ["a"] (TreeMap.ofList [("a", true)]) { netIndex := 0 } =
        true ∧
      inverterPairTable[2]?.map FaultRow.fault = some { netIndex := 0 } := by
  refine ⟨by decide +kernel, by decide +kernel, by decide +kernel⟩

end FaultFlow.Grading
