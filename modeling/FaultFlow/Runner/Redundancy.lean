/-
# Redundancy verdicts of the progressive loop

A fault is marked redundant when its solver call is unsatisfiable, and the call
leaves out the patterns rejected for that fault before.  When accepted vectors
are graded against every remaining fault, no pattern that was seen detects a
fault that is still active (`Covered`), so nothing is ever rejected and every
verdict is about all vectors (`runProgressiveNativeAtpg_redundant`).  With
`fault_drop_sat` off a vector is graded against its target only, and a fault
that a vector of another fault would detect is marked redundant
(`andGate_redundant_detectable`).
-/

import FaultFlow.Runner.NativeCore

namespace FaultFlow.Runner

open Lib
open Std (TreeMap TreeSet)

/-! ## Patterns -/

/-- The names of a vector that are not inputs. -/
def extraNames (v : PiMap) (inputOrder : List String) : List String :=
  v.keys.filter fun name => !inputOrder.contains name

variable {v w : PiMap} {inputOrder : List String} {preflight : Option PreflightData} {core : Core}

/-- Vectors over the same names have the same extra names. -/
theorem extraNames_eq (h : ∀ n, n ∈ v ↔ n ∈ w) (inputOrder : List String) :
    extraNames v inputOrder = extraNames w inputOrder := by
  have hkeys : v.keys = w.keys := by
    refine List.Perm.eq_of_pairwise
      (fun (a b : String) _ _ (hab : compare a b = .lt) hba =>
        absurd hba (Std.OrientedCmp.not_lt_of_lt hab))
      TreeMap.ordered_keys TreeMap.ordered_keys ?_
    exact (List.perm_ext_iff_of_nodup TreeMap.nodup_keys TreeMap.nodup_keys).2
      fun n => by rw [TreeMap.mem_keys, TreeMap.mem_keys, h]
  rw [extraNames, hkeys, extraNames]

/-- **Two vectors with one pattern agree** on the names of the first, when they
have the same extra names, or the second has none. -/
theorem getD_eq_of_patternKey_eq (h : patternKey v inputOrder = patternKey w inputOrder)
    (hextra : extraNames v inputOrder = extraNames w inputOrder ∨ extraNames w inputOrder = [])
    {n : String} (hn : n ∈ v) : v.getD n false = w.getD n false := by
  have hlist : (inputOrder ++ extraNames v inputOrder).map (fun n => if v.getD n false then '1' else '0') =
      (inputOrder ++ extraNames w inputOrder).map fun n => if w.getD n false then '1' else '0' :=
    String.ofList_injective h
  have hsame : extraNames v inputOrder = extraNames w inputOrder := by
    refine hextra.elim id fun hw => ?_
    have hlen := congrArg List.length hlist
    simp only [List.length_map, List.length_append, hw, List.length_nil] at hlen
    rw [hw]
    exact List.length_eq_zero_iff.1 (by omega)
  rw [hsame] at hlist
  have hmem : n ∈ inputOrder ++ extraNames w inputOrder := by
    rw [← hsame, List.mem_append, extraNames, List.mem_filter, TreeMap.mem_keys]
    by_cases hin : n ∈ inputOrder
    · exact .inl hin
    · exact .inr ⟨hn, by simpa using hin⟩
  have hbit := List.map_inj_left.1 hlist n hmem
  cases hv : v.getD n false <;> cases hw : w.getD n false <;> simp [hv, hw] at hbit <;> rfl

/-- A random vector has no extra names. -/
theorem extraNames_random {bit : ℕ → Bool} {count : ℕ}
    (hw : w ∈ generateRandomVectors bit inputOrder count) : extraNames w inputOrder = [] := by
  obtain ⟨i, -, rfl⟩ := List.mem_map.1 hw
  refine List.filter_eq_nil_iff.2 fun n hn => ?_
  rw [TreeMap.mem_keys] at hn
  suffices h : n ∈ inputOrder by simpa using h
  revert hn
  refine Lib.foldl_invariant (fun v : PiMap => n ∈ v → n ∈ inputOrder) (by simp) fun p hp v hv hn => ?_
  rw [TreeMap.mem_insert] at hn
  rcases hn with hn | hn
  · obtain rfl : p.1 = n := Std.LawfulEqCmp.eq_of_compare hn
    exact (List.mem_zipIdx hp).2.2 ▸ List.getElem_mem _
  · exact hv hn

/-! ## The fault table -/

/-- Detecting a fault twice is detecting it once. -/
theorem FaultRow.detect_detect (row : FaultRow) : row.detect.detect = row.detect := by
  unfold FaultRow.detect
  split <;> simp_all

theorem FaultRow.fault_detect (row : FaultRow) : row.detect.fault = row.fault := by
  unfold FaultRow.detect
  split <;> rfl

variable {row : FaultRow}

theorem FaultRow.detect_of_redundant (h : row.detect.status = .redundant) :
    row.detect = row := by
  unfold FaultRow.detect at h ⊢
  grind

theorem FaultRow.active_detect (row : FaultRow) : row.detect.active = false := by
  unfold FaultRow.detect FaultRow.active FaultRow.open
  grind

theorem FaultRow.inScope_of_open (h : row.open = true) : row.inScope = true := by
  unfold FaultRow.open at h
  simp_all

theorem FaultRow.open_of_active (h : row.active = true) : row.open = true := by
  unfold FaultRow.active at h
  simp_all

theorem FaultRow.inScope_of_active (h : row.active = true) : row.inScope = true :=
  inScope_of_open (open_of_active h)

namespace FaultTable

variable {db db' : FaultTable} {id : ℕ}

theorem getElem?_modify' {f : FaultRow → FaultRow} (k : ℕ) :
    (db.modify id f)[k]? = if k = id then (db[k]?).map f else db[k]? := by
  rw [TreeMap.getElem?_modify]
  by_cases h : k = id
  · rw [if_pos (by simp [h]), if_pos h, h]
  · rw [if_neg (by simpa using Ne.symm h), if_neg h]

theorem mem_activeIds : id ∈ db.activeIds ↔ ∃ row, db[id]? = some row ∧ row.active = true := by
  simp [activeIds, TreeMap.mem_toList_iff_getElem?_eq_some]

theorem nodup_activeIds (db : FaultTable) : db.activeIds.Nodup := by
  have hkeys : (db.toList.map Prod.fst).Nodup := by
    rw [TreeMap.map_fst_toList_eq_keys]
    exact TreeMap.nodup_keys
  exact hkeys.sublist (List.filter_sublist.map _)

theorem getElem?_markDetected (ids : List ℕ) (k : ℕ) :
    (ids.foldl markDetected db)[k]? =
      (db[k]?).map fun row => if k ∈ ids then row.detect else row := by
  induction ids generalizing db with
  | nil => simp
  | cons a ids ih =>
    rw [List.foldl_cons, ih, markDetected, getElem?_modify']
    by_cases ha : k = a
    · subst ha
      rw [if_pos rfl, Option.map_map]
      congr 1
      funext row
      by_cases hk : k ∈ ids <;> simp [hk, FaultRow.detect_detect]
    · rw [if_neg ha]
      simp [ha]

/-- `db'` is `db` with the faults of `newly` detected. -/
def Detects (newly : List ℕ) (db db' : FaultTable) : Prop :=
  ∀ k, db'[k]? = (db[k]?).map fun row => if k ∈ newly then row.detect else row

/-- A row after grading has the fault of a row from before, and is the very same
if it is redundant or still active. -/
theorem Detects.exists_row {newly : List ℕ} (h : Detects newly db db') {row' : FaultRow}
    (hrow : db'[id]? = some row') : ∃ row, db[id]? = some row ∧ row'.fault = row.fault ∧
      (row'.status = .redundant → row' = row) ∧
      (row'.active = true → id ∉ newly ∧ row' = row) := by
  rw [h, Option.map_eq_some_iff] at hrow
  obtain ⟨row, hrow, rfl⟩ := hrow
  refine ⟨row, hrow, ?_⟩
  split
  · exact ⟨row.fault_detect, FaultRow.detect_of_redundant, by simp [row.active_detect]⟩
  · rename_i hnot
    exact ⟨rfl, fun _ => rfl, fun _ => ⟨hnot, rfl⟩⟩

end FaultTable

variable {db : FaultTable} {id : ℕ}

/-- A round visits the active faults, each of them once. -/
theorem mem_roundOrder : id ∈ roundOrder preflight db ↔ id ∈ db.activeIds := by
  simp only [roundOrder, List.mem_append, List.mem_filter]
  cases isReconvergent preflight db id <;> simp

theorem nodup_roundOrder (preflight : Option PreflightData) (db : FaultTable) :
    (roundOrder preflight db).Nodup := by
  have hactive := FaultTable.nodup_activeIds db
  refine List.nodup_append.2 ⟨hactive.filter _, hactive.filter _, fun a ha b hb hab => ?_⟩
  have ha := (List.mem_filter.1 ha).2
  have hb := (List.mem_filter.1 hb).2
  simp_all

/-- Dropping what a vector detects from a set of faults. -/
theorem mem_drop_newly {newly : List ℕ} {remaining : TreeSet ℕ} {k : ℕ} :
    k ∈ newly.foldl TreeSet.erase remaining ↔ k ∈ remaining ∧ k ∉ newly :=
  (mem_foldl_erase (fun a : ℕ => a) newly remaining k).trans
    (and_congr_right fun _ => ⟨fun hall hk => hall k hk rfl, fun hk _ ha heq => hk (heq ▸ ha)⟩)

/-- What one vector does to the table. -/
theorem simulateIncremental_eq_ok {ids : List ℕ} {graded : FaultTable × List ℕ}
    (h : simulateIncremental core db v ids = .ok graded) :
    FaultTable.Detects graded.2 db graded.1 ∧ ∀ id, id ∈ graded.2 ↔
      id ∈ ids ∧ ∃ row, db[id]? = some row ∧ row.open = true ∧ core.grade row.fault v = true := by
  obtain ⟨active, hactive, h⟩ := bind_eq_ok.1 h
  obtain ⟨rows, hrows, hactive⟩ := bind_eq_ok.1 hactive
  cases h
  cases hactive
  refine ⟨FaultTable.getElem?_markDetected _, fun id => ?_⟩
  have hmem : ∀ row, (id, row) ∈ rows ↔ id ∈ ids ∧ db[id]? = some row := by
    intro row
    rw [mem_of_mapM_eq_ok hrows]
    constructor
    · rintro ⟨k, hk, hrow⟩
      split at hrow
      · rename_i row' hrow'
        cases hrow
        exact ⟨hk, hrow'⟩
      · cases hrow
    · rintro ⟨hid, hrow⟩
      exact ⟨id, hid, by rw [hrow]⟩
  simp only [List.mem_map, List.mem_filter]
  constructor
  · rintro ⟨-, ⟨⟨⟨k, row⟩, ⟨hrow, hopen⟩, rfl⟩, hgrade⟩, rfl⟩
    obtain ⟨hid, hrow⟩ := (hmem row).1 hrow
    exact ⟨hid, row, hrow, hopen, hgrade⟩
  · rintro ⟨hid, row, hrow, hopen, hgrade⟩
    exact ⟨(id, row.fault), ⟨⟨(id, row), ⟨(hmem row).2 ⟨hid, hrow⟩, hopen⟩, rfl⟩, hgrade⟩, rfl⟩

/-! ## The invariant -/

/-- **The verdicts on a table are sound**: faults stay, and a redundant row is one
that was there, or its fault is undetectable. -/
structure Sound (core : Core) (db₀ db : FaultTable) : Prop where
  fault : ∀ {id : ℕ} {row : FaultRow}, db[id]? = some row →
    ∃ row₀, db₀[id]? = some row₀ ∧ row₀.fault = row.fault
  redundant : ∀ {id : ℕ} {row : FaultRow}, db[id]? = some row → row.status = .redundant →
    db₀[id]? = some row ∨ core.Undetectable row.fault

/-- No pattern that was seen detects an active fault. -/
def Covered (core : Core) (names inputOrder : List String) (seen : TreeSet String)
    (db : FaultTable) : Prop :=
  ∀ (id : ℕ) (row : FaultRow), db[id]? = some row → row.active = true →
    ∀ v, Over names v → patternKey v inputOrder ∈ seen → core.grade row.fault v = false

/-- A verdict that was reached without blocked patterns. -/
structure Answer (core : Core) (names : List String) (f : CompactFault)
    (solved : Atpg.SolveOutcome PiMap) : Prop where
  sat : solved.result = .SAT → ∃ v, solved.out = some v ∧ Over names v ∧ core.grade f v = true
  unsat : solved.result = .UNSAT → core.Undetectable f

/-- The invariant of a run. -/
structure RunInv (core : Core) (names inputOrder : List String) (db₀ : FaultTable)
    (s : RunState) : Prop where
  sound : Sound core db₀ s.db
  covered : Covered core names inputOrder s.seenPatterns s.db
  unblocked : ∀ id, s.blocked id = []

/-- The invariant of a round, with the faults `rest` to come. -/
structure RoundInv (core : Core) (names inputOrder : List String) (db₀ : FaultTable)
    (rest : List ℕ) (rs : RoundState) : Prop
    extends RunInv core names inputOrder db₀ rs.toRunState where
  mem_remaining : ∀ {id : ℕ} {row : FaultRow}, rs.db[id]? = some row → row.active = true →
    id ∈ rs.remaining
  active : ∀ id ∈ rest, id ∈ rs.remaining → ∃ row, rs.db[id]? = some row ∧ row.active = true
  results : ∀ {id : ℕ} {solved : Atpg.SolveOutcome PiMap}, rs.parallelResults[id]? = some solved →
    ∀ row₀, db₀[id]? = some row₀ → Answer core names row₀.fault solved

section Loop

variable {cfg : AtpgConfig} {names : List String} {modelId : String} {db₀ db' : FaultTable}
  {newly : List ℕ}

/-- Grading keeps the verdicts sound. -/
theorem Sound.detects (h : Sound core db₀ db) (hd : FaultTable.Detects newly db db') :
    Sound core db₀ db' where
  fault hrow := by
    obtain ⟨row, hrow, hfault, -⟩ := hd.exists_row hrow
    rw [hfault]
    exact h.fault hrow
  redundant hrow hred := by
    obtain ⟨row, hrow, -, hsame, -⟩ := hd.exists_row hrow
    obtain rfl := hsame hred
    exact h.redundant hrow hred

/-- Grading keeps the seen patterns covered. -/
theorem Covered.detects {seen : TreeSet String} (h : Covered core names inputOrder seen db)
    (hd : FaultTable.Detects newly db db') : Covered core names inputOrder seen db' := by
  intro id row' hrow hactive v hover hkey
  obtain ⟨row, hrow, -, -, hsame⟩ := hd.exists_row hrow
  obtain ⟨-, rfl⟩ := hsame hactive
  exact h id row' hrow hactive v hover hkey

variable {row₀ : FaultRow}

theorem Sound.holds (h : Sound core db₀ db) (hrow : db[id]? = some row)
    (hscope : row.inScope = true) : db₀.Holds row.fault := by
  obtain ⟨row₀, hrow₀, hfault⟩ := h.fault hrow
  exact ⟨id, row₀, hrow₀, by rw [FaultRow.inScope, hfault]; exact hscope, hfault⟩

variable (hexact : core.Exact names db₀.Holds)

include hexact

/-- A call of the solver without blocked patterns. -/
theorem solveFaultForDb_answer (hsound : Sound core db₀ db) {call seconds id : ℕ}
    {solved : Atpg.SolveOutcome PiMap} (h : solveFaultForDb core db call seconds id [] = .ok solved)
    (hrow₀ : db₀[id]? = some row₀) : Answer core names row₀.fault solved := by
  have hnone : Atpg.KeysOk names.length ([] : List (List Char)) := by simp [Atpg.KeysOk]
  unfold solveFaultForDb at h
  split at h
  · cases h
  rename_i row hrow
  obtain ⟨row₁, hrow₁, hfault⟩ := hsound.fault hrow
  obtain rfl : row₁ = row₀ := Option.some.inj (hrow₁.symm.trans hrow₀)
  split at h
  · rename_i hopen
    have hholds := hsound.holds hrow (FaultRow.inScope_of_open hopen)
    rw [← hfault] at hholds
    split at h
    · rename_i solved' hsolve
      cases h
      rw [← hfault] at hsolve
      refine ⟨fun hsat => ?_, fun hunsat v => ?_⟩
      · obtain ⟨v, hout, hover, hgrade, -⟩ := hexact.sat hholds hnone hsolve hsat
        exact ⟨v, hout, hover, hgrade⟩
      · by_contra hdet
        exact absurd (hexact.unsat hholds hnone hsolve hunsat v (by simpa using hdet)) List.not_mem_nil
    · cases h
  · cases h

theorem solveFaultWorker_answer (hsound : Sound core db₀ db) (call seconds id : ℕ)
    (hrow₀ : db₀[id]? = some row₀) :
    Answer core names row₀.fault (solveFaultWorker core db call seconds id []) := by
  unfold solveFaultWorker
  split
  · rename_i solved h
    exact solveFaultForDb_answer hexact hsound h hrow₀
  · exact ⟨nofun, nofun⟩

/-! ## One fault -/

variable {rest : List ℕ} {rs : RoundState}

/-- The results of a wave leave the invariant. -/
theorem RoundInv.fetchResults (h : RoundInv core names inputOrder db₀ rest rs) (call : ℕ)
    (ids : List ℕ) :
    Ends (fetchResults core cfg call rs ids)
      (fun rs' => RoundInv core names inputOrder db₀ rest rs' ∧ rs'.remaining = rs.remaining)
      fun st => Sound core db₀ st.db := by
  induction ids generalizing call rs with
  | nil => exact ⟨h, rfl⟩
  | cons id ids ih =>
    rw [Runner.fetchResults]
    split
    · exact h.sound
    · exact ⟨h, rfl⟩
    · refine ih ?_ _
      refine ⟨⟨h.sound, h.covered, h.unblocked⟩, h.mem_remaining, h.active, ?_⟩
      intro k solved hk row₀ hrow₀
      rw [TreeMap.getElem?_insert] at hk
      split at hk
      · rename_i heq
        obtain rfl : id = k := Std.LawfulEqCmp.eq_of_compare heq
        cases hk
        rw [h.unblocked]
        exact solveFaultWorker_answer hexact h.sound _ _ _ hrow₀
      · exact h.results hk row₀ hrow₀

theorem RoundInv.ensureWave (h : RoundInv core names inputOrder db₀ rest rs) (id : ℕ) :
    Ends (ensureWave core cfg rs id)
      (fun rs' => RoundInv core names inputOrder db₀ rest rs' ∧ rs'.remaining = rs.remaining)
      fun st => Sound core db₀ st.db := by
  unfold Runner.ensureWave
  split
  · refine RoundInv.fetchResults hexact ?_ _ _
    exact ⟨⟨h.sound, h.covered, h.unblocked⟩, h.mem_remaining, h.active, h.results⟩
  · exact ⟨h, rfl⟩

/-- The verdict on a fault is right, and the invariant stands. -/
theorem RoundInv.verdictFor (h : RoundInv core names inputOrder db₀ rest rs) (id : ℕ) :
    Ends (verdictFor core cfg rs id)
      (fun r => RoundInv core names inputOrder db₀ rest r.2 ∧ r.2.remaining = rs.remaining ∧
        ∀ row₀, db₀[id]? = some row₀ → Answer core names row₀.fault r.1)
      fun st => Sound core db₀ st.db := by
  unfold Runner.verdictFor
  split
  · rw [h.unblocked]
    cases hsolve : solveFaultForDb core rs.db rs.calls (rs.tierTimeout cfg id) id [] with
    | error e => exact h.sound
    | ok solved =>
      exact ⟨⟨⟨h.sound, h.covered, h.unblocked⟩, h.mem_remaining, h.active, h.results⟩, rfl,
        fun row₀ hrow₀ => solveFaultForDb_answer hexact h.sound hsolve hrow₀⟩
  · refine ⟨⟨⟨h.sound, h.covered, h.unblocked⟩, h.mem_remaining, h.active, fun hk => ?_⟩, rfl,
      fun row₀ hrow₀ => ?_⟩
    · rw [TreeMap.getElem?_erase] at hk
      split at hk
      · cases hk
      · exact h.results hk
    · cases hres : rs.parallelResults[id]? with
      | none => exact ⟨nofun, nofun⟩
      | some solved => exact h.results hres row₀ hrow₀

/-- Accepting a candidate: it is graded against every fault that is still active. -/
theorem RoundInv.acceptCandidate (hdrop : cfg.faultDropSat = true)
    (h : RoundInv core names inputOrder db₀ rest rs) (hover : Over names v) :
    Ends (acceptCandidate core cfg rs id (patternKey v inputOrder) v)
      (RoundInv core names inputOrder db₀ rest) fun st => Sound core db₀ st.db := by
  unfold Runner.acceptCandidate
  simp only [hdrop, if_true]
  cases hgraded : simulateIncremental core rs.db v rs.remaining.toList with
  | error e => exact h.sound
  | ok graded =>
    obtain ⟨hdetects, hnewly⟩ := simulateIncremental_eq_ok hgraded
    refine ⟨⟨h.sound.detects hdetects, ?_, h.unblocked⟩, ?_, ?_, h.results⟩
    · intro k row' hrow' hactive w hw hkey
      rw [TreeSet.mem_insert] at hkey
      rcases hkey with hkey | hkey
      · -- the pattern of the candidate: the row was graded, and is still active
        obtain ⟨row, hrow, -, -, hsame⟩ := hdetects.exists_row hrow'
        obtain ⟨hnot, rfl⟩ := hsame hactive
        have hmem := TreeSet.mem_toList.2 (h.mem_remaining hrow hactive)
        have hgrade : core.grade row'.fault v = false := by
          by_contra hdet
          exact hnot ((hnewly k).2 ⟨hmem, row', hrow, FaultRow.open_of_active hactive, by simpa using hdet⟩)
        rw [← hgrade]
        refine hexact.reads (h.sound.holds hrow (FaultRow.inScope_of_active hactive)) fun n hn => ?_
        exact getD_eq_of_patternKey_eq (Std.LawfulEqCmp.eq_of_compare hkey).symm
          (.inl (extraNames_eq (fun m => (hw m).trans (hover m).symm) _)) ((hw n).2 hn)
      · exact h.covered.detects hdetects k row' hrow' hactive w hw hkey
    · intro k row' hrow' hactive
      obtain ⟨row, hrow, -, -, hsame⟩ := hdetects.exists_row hrow'
      obtain ⟨hnot, rfl⟩ := hsame hactive
      exact mem_drop_newly.2 ⟨h.mem_remaining hrow hactive, hnot⟩
    · intro k hk hrem
      obtain ⟨hrem, hnot⟩ := mem_drop_newly.1 hrem
      obtain ⟨row, hrow, hactive⟩ := h.active k hk hrem
      exact ⟨row, by simp [hdetects k, hrow, hnot], hactive⟩

/-- A candidate that detects an active fault was not seen before, stands the
test and is accepted. -/
theorem RoundInv.handleCandidate (hdrop : cfg.faultDropSat = true)
    (h : RoundInv core names inputOrder db₀ rest rs) (hrow : rs.db[id]? = some row)
    (hactive : row.active = true) (hover : Over names v) (hgrade : core.grade row.fault v = true) :
    Ends (handleCandidate core cfg inputOrder rs id v) (RoundInv core names inputOrder db₀ rest)
      fun st => Sound core db₀ st.db := by
  have hnew : rs.seenPatterns.contains (patternKey v inputOrder) = false := by
    by_contra hseen
    rw [Bool.not_eq_false, TreeSet.contains_iff_mem] at hseen
    exact absurd (h.covered id row hrow hactive v hover hseen) (by simp [hgrade])
  have hverify : core.verify row.fault v = true :=
    (hexact.verify (h.sound.holds hrow (FaultRow.inScope_of_active hactive)) hover).trans hgrade
  unfold Runner.handleCandidate
  simp only [hnew, Bool.false_eq_true, if_false, hrow, hverify, if_true]
  refine RoundInv.acceptCandidate hexact hdrop ?_ hover
  exact ⟨⟨h.sound, h.covered, h.unblocked⟩, h.mem_remaining, h.active, h.results⟩

omit hexact in
/-- A certified row is as before, or undetected no more. -/
theorem FaultRow.certify_cases (modelId : String) (row : FaultRow) :
    row.certify modelId = row ∨
      (row.certify modelId).fault = row.fault ∧ (row.certify modelId).active = false := by
  unfold FaultRow.certify FaultRow.active FaultRow.open
  grind

omit hexact in
/-- Marking an undetectable fault. -/
theorem RoundInv.markRedundant (hnodup : (id :: rest).Nodup)
    (h : RoundInv core names inputOrder db₀ rest rs)
    (hund : ∀ row, rs.db[id]? = some row → core.Undetectable row.fault) (stats : AtpgStats) :
    RoundInv core names inputOrder db₀ rest
      { rs with db := rs.db.markRedundant modelId id, stats := stats } := by
  have hrows : ∀ {k : ℕ} {row' : FaultRow}, (rs.db.markRedundant modelId id)[k]? = some row' →
      ∃ row, rs.db[k]? = some row ∧ row'.fault = row.fault ∧
        (row' = row ∨ k = id ∧ row'.active = false) := by
    intro k row' hrow'
    rw [FaultTable.markRedundant, FaultTable.getElem?_modify'] at hrow'
    split at hrow'
    · rename_i hk
      obtain ⟨row, hrow, rfl⟩ := Option.map_eq_some_iff.1 hrow'
      rcases FaultRow.certify_cases modelId row with heq | ⟨hfault, hactive⟩
      · exact ⟨row, hrow, by rw [heq], .inl heq⟩
      · exact ⟨row, hrow, hfault, .inr ⟨hk, hactive⟩⟩
    · exact ⟨row', hrow', rfl, .inl rfl⟩
  refine ⟨⟨⟨?_, ?_⟩, ?_, h.unblocked⟩, ?_, ?_, h.results⟩
  · intro k row' hrow'
    obtain ⟨row, hrow, hfault, -⟩ := hrows hrow'
    rw [hfault]
    exact h.sound.fault hrow
  · intro k row' hrow' hred
    obtain ⟨row, hrow, hfault, rfl | ⟨rfl, -⟩⟩ := hrows hrow'
    · exact h.sound.redundant hrow hred
    · exact .inr (hfault ▸ hund row hrow)
  · intro k row' hrow' hactive
    obtain ⟨row, hrow, -, rfl | ⟨-, hinactive⟩⟩ := hrows hrow'
    · exact h.covered k row' hrow hactive
    · exact absurd hactive (by simp [hinactive])
  · intro k row' hrow' hactive
    obtain ⟨row, hrow, -, rfl | ⟨-, hinactive⟩⟩ := hrows hrow'
    · exact h.mem_remaining hrow hactive
    · exact absurd hactive (by simp [hinactive])
  · intro k hk hrem
    obtain ⟨row, hrow, hactive⟩ := h.active k hk hrem
    have hne : k ≠ id := fun heq => (List.nodup_cons.1 hnodup).1 (heq ▸ hk)
    exact ⟨row, by rw [FaultTable.markRedundant, FaultTable.getElem?_modify', if_neg hne]; exact hrow,
      hactive⟩

/-- **One turn of the loop** keeps the invariant. -/
theorem RoundInv.processFault (hdrop : cfg.faultDropSat = true) (hnodup : (id :: rest).Nodup)
    (h : RoundInv core names inputOrder db₀ (id :: rest) rs) :
    Ends (processFault core cfg inputOrder modelId rs id) (RoundInv core names inputOrder db₀ rest)
      fun st => Sound core db₀ st.db := by
  have hskip : ∀ {rs' : RoundState}, RoundInv core names inputOrder db₀ (id :: rest) rs' →
      RoundInv core names inputOrder db₀ rest rs' := fun h' =>
    ⟨h'.toRunInv, h'.mem_remaining, fun k hk => h'.active k (List.mem_cons_of_mem _ hk), h'.results⟩
  unfold Runner.processFault
  split
  · exact hskip h
  rename_i hmem
  have hrem : id ∈ rs.remaining := by
    simpa [hdrop, ← TreeSet.contains_iff_mem] using hmem
  refine (RoundInv.ensureWave hexact h id).bind ?_
  rintro rs₁ ⟨h₁, hrem₁⟩
  refine (RoundInv.verdictFor hexact h₁ id).bind ?_
  rintro ⟨solved, rs₂⟩ ⟨h₂, hrem₂, hanswer⟩
  obtain ⟨row, hrow, hactive⟩ := h₂.active id List.mem_cons_self (by rw [hrem₂, hrem₁]; exact hrem)
  obtain ⟨row₀, hrow₀, hfault⟩ := h₂.sound.fault hrow
  have hanswer := hanswer row₀ hrow₀
  rw [hfault] at hanswer
  unfold Runner.handleVerdict
  split
  · rename_i hsat
    obtain ⟨v, hout, hover, hgrade⟩ := hanswer.sat hsat
    rw [hout]
    exact RoundInv.handleCandidate hexact hdrop (hskip h₂) hrow hactive hover hgrade
  · rename_i hunsat
    refine RoundInv.markRedundant hnodup (hskip h₂) (fun row' hrow' => ?_) _
    obtain rfl : row = row' := Option.some.inj (hrow.symm.trans hrow')
    exact hanswer.unsat hunsat
  · have h₃ := hskip h₂
    exact ⟨⟨h₃.sound, h₃.covered, h₃.unblocked⟩, h₃.mem_remaining, h₃.active, h₃.results⟩
  · have h₃ := hskip h₂
    exact ⟨⟨h₃.sound, h₃.covered, h₃.unblocked⟩, h₃.mem_remaining, h₃.active, h₃.results⟩

/-! ## The random phase -/

omit hexact in
/-- The grading of the random phase: what is active at the end was active at the
start, and no vector that was graded detects it. -/
theorem gradeRandom_spec (vectors : List PiMap) (denominator : ℕ) {ids : List ℕ}
    (hsound : Sound core db₀ db)
    (hids : ∀ (id : ℕ) (row : FaultRow), db[id]? = some row → row.active = true → id ∈ ids) :
    Ends (gradeRandom core cfg ids denominator db vectors)
      (fun r => Sound core db₀ r.1 ∧
        (∀ (id : ℕ) (row : FaultRow), r.1[id]? = some row → row.active = true → db[id]? = some row) ∧
        ∃ graded, vectors = graded ++ r.2 ∧ ∀ (id : ℕ) (row : FaultRow), r.1[id]? = some row →
          row.active = true → ∀ v ∈ graded, core.grade row.fault v = false)
      fun st => Sound core db₀ st.db := by
  induction vectors generalizing db with
  | nil => exact ⟨hsound, fun _ _ h _ => h, [], rfl, by simp⟩
  | cons v vectors ih =>
    rw [gradeRandom]
    cases hgraded : simulateIncremental core db v ids with
    | error e => exact hsound
    | ok graded =>
      obtain ⟨hdetects, hnewly⟩ := simulateIncremental_eq_ok hgraded
      have hkeep : ∀ (id : ℕ) (row : FaultRow), graded.1[id]? = some row → row.active = true →
          db[id]? = some row ∧ core.grade row.fault v = false := by
        intro id row' hrow' hactive
        obtain ⟨row, hrow, -, -, hsame⟩ := hdetects.exists_row hrow'
        obtain ⟨hnot, rfl⟩ := hsame hactive
        refine ⟨hrow, ?_⟩
        by_contra hdet
        exact hnot ((hnewly id).2 ⟨hids id row' hrow hactive, row', hrow,
          FaultRow.open_of_active hactive, by simpa using hdet⟩)
      show Ends (if _ then _ else _) _ _
      split
      · exact ⟨hsound.detects hdetects, fun id row hrow hact => (hkeep id row hrow hact).1, [v], rfl,
          fun id row hrow hact w hw => by
            rw [List.mem_singleton.1 hw]
            exact (hkeep id row hrow hact).2⟩
      · refine (ih (hsound.detects hdetects) fun id row hrow hact =>
          hids id row (hkeep id row hrow hact).1 hact).imp ?_
        rintro ⟨db', left⟩ ⟨hsound', hkeep', done, hsplit, hdone⟩
        refine ⟨hsound', fun id row hrow hact => (hkeep id row (hkeep' id row hrow hact) hact).1,
          v :: done, by rw [hsplit]; rfl, fun id row hrow hact w hw => ?_⟩
        rcases List.mem_cons.1 hw with rfl | hw
        · exact (hkeep id row (hkeep' id row hrow hact) hact).2
        · exact hdone id row hrow hact w hw

omit hexact in
/-- The new vectors come from the batch, and only their patterns are new. -/
theorem appendUniqueVectors_spec (inputOrder : List String) (seen : TreeSet String)
    (batch : List PiMap) :
    (∀ v ∈ (appendUniqueVectors inputOrder seen batch).1, v ∈ batch) ∧
      ∀ key ∈ (appendUniqueVectors inputOrder seen batch).2,
        key ∈ seen ∨
          ∃ v ∈ (appendUniqueVectors inputOrder seen batch).1, patternKey v inputOrder = key := by
  refine foldl_invariant (fun acc : List PiMap × TreeSet String => (∀ v ∈ acc.1, v ∈ batch) ∧
    ∀ key ∈ acc.2, key ∈ seen ∨ ∃ v ∈ acc.1, patternKey v inputOrder = key) (b := ([], seen))
    ?_ ?_
  · exact ⟨by simp, fun key hkey => .inl hkey⟩
  rintro v hv ⟨vectors, seen'⟩ ⟨hmem, hkeys⟩
  dsimp only
  split
  · exact ⟨hmem, hkeys⟩
  · refine ⟨fun w hw => ?_, fun key hkey => ?_⟩
    · rcases List.mem_append.1 hw with hw | hw
      · exact hmem w hw
      · rwa [List.mem_singleton.1 hw]
    · rcases TreeSet.mem_insert.1 hkey with hkey | hkey
      · exact .inr ⟨v, by simp, Std.LawfulEqCmp.eq_of_compare hkey⟩
      · exact (hkeys key hkey).imp_right fun ⟨w, hw, hk⟩ => ⟨w, List.mem_append_left _ hw, hk⟩

variable {s : RunState}

/-- **The random phase** leaves only patterns that were graded. -/
theorem RunInv.randomPhase (h : RunInv core names inputOrder db₀ s) :
    Ends (randomPhase core cfg inputOrder s) (RunInv core names inputOrder db₀)
      fun st => Sound core db₀ st.db := by
  obtain ⟨hbatch, hkeys⟩ := appendUniqueVectors_spec inputOrder s.seenPatterns
    (generateRandomVectors core.randomBit inputOrder cfg.randomVectors)
  refine (gradeRandom_spec _ _ h.sound fun id row hrow hact =>
    FaultTable.mem_activeIds.2 ⟨row, hrow, hact⟩).bind ?_
  rintro ⟨db, left⟩ ⟨hsound, hkeep, graded, hsplit, hgraded⟩
  refine ⟨hsound, fun id row hrow hact v hover hkey => ?_, h.unblocked⟩
  obtain ⟨hkey, hleft⟩ := (mem_foldl_erase (fun v => patternKey v inputOrder) left _ _).1 hkey
  rcases hkeys _ hkey with hkey | ⟨w, hw, hkey⟩
  · exact h.covered id row (hkeep id row hrow hact) hact v hover hkey
  · have hmem : w ∈ graded := by
      rw [hsplit] at hw
      exact (List.mem_append.1 hw).resolve_right fun hw => hleft w hw hkey
    rw [← hgraded id row hrow hact w hmem]
    refine hexact.reads (hsound.holds hrow (FaultRow.inScope_of_active hact)) fun n hn => ?_
    exact getD_eq_of_patternKey_eq hkey.symm (.inr (extraNames_random (hbatch w hw))) ((hover n).2 hn)

/-! ## Rounds -/

/-- The solving phase of a round. -/
theorem RunInv.satPhase (hdrop : cfg.faultDropSat = true) (h : RunInv core names inputOrder db₀ s) :
    Ends (satPhase core cfg inputOrder modelId preflight s)
      (fun rs => RunInv core names inputOrder db₀ rs.toRunState) fun st => Sound core db₀ st.db := by
  have hnodup := nodup_roundOrder preflight s.db
  refine (Ends.foldlM (fun pre rs => ∀ rest, roundOrder preflight s.db = pre ++ rest →
    RoundInv core names inputOrder db₀ rest rs) ?_ ?_).imp fun rs hrs =>
    (hrs [] (by rw [List.append_nil]; rfl)).toRunInv
  · rintro rest rfl
    refine ⟨⟨h.sound, h.covered, h.unblocked⟩, fun hrow hact => ?_, fun id hid _ => ?_, ?_⟩
    · rw [TreeSet.mem_ofList, List.contains_iff_mem]
      exact mem_roundOrder.2 (FaultTable.mem_activeIds.2 ⟨_, hrow, hact⟩)
    · exact FaultTable.mem_activeIds.1 (mem_roundOrder.1 hid)
    · intro id solved hsolved
      simp at hsolved
  · intro pre id post rs hids hrs
    have hsuffix : (id :: post).Nodup := (List.nodup_append.1 (hids ▸ hnodup)).2.1
    refine (RoundInv.processFault hexact hdrop hsuffix (hrs (id :: post) hids)).imp ?_
    rintro rs' hrs' rest hrest
    have hpost : post = rest := by
      have := hids.symm.trans hrest
      simpa using this
    exact hpost ▸ hrs'

theorem RunInv.round (hdrop : cfg.faultDropSat = true) (h : RunInv core names inputOrder db₀ s)
    (index : ℕ) :
    Ends (round core cfg inputOrder modelId preflight s index)
      (fun r => RunInv core names inputOrder db₀ r.1) fun st => Sound core db₀ st.db := by
  have h₁ : RunInv core names inputOrder db₀ { s with stats := { s.stats with rounds := index } } :=
    ⟨h.sound, h.covered, h.unblocked⟩
  have hfill : Ends (fillPhase core cfg inputOrder
      { s with stats := { s.stats with rounds := index } } index)
      (RunInv core names inputOrder db₀) fun st => Sound core db₀ st.db := by
    unfold fillPhase
    split
    · exact RunInv.randomPhase hexact h₁
    · exact h₁
  unfold Runner.round
  by_cases hempty : s.db.activeIds.isEmpty = true
  · simp only [hempty, if_true]
    exact h₁
  · simp only [hempty, if_false, Bool.false_eq_true]
    refine hfill.bind fun s₂ h₂ => ?_
    split
    · exact h₂
    · exact (RunInv.satPhase hexact hdrop h₂).bind fun rs hrs => hrs

/-- **Every round keeps the invariant.** -/
theorem RunInv.rounds (hdrop : cfg.faultDropSat = true) (n index : ℕ)
    (h : RunInv core names inputOrder db₀ s) :
    Ends (rounds core cfg inputOrder modelId preflight n index s)
      (fun r => RunInv core names inputOrder db₀ r.1) fun st => Sound core db₀ st.db := by
  induction n generalizing index s with
  | zero => exact h
  | succ n ih =>
    rw [Runner.rounds]
    refine (RunInv.round hexact hdrop h index).bind fun r hr => ?_
    split
    · exact hr
    · exact ih (index + 1) hr

end Loop

/-! ## A run -/

variable {modelId : String}

/-- Dropping stale verdicts keeps the faults. -/
theorem FaultTable.invalidate_row (h : (db.invalidateStaleRedundant modelId)[id]? = some row) :
    ∃ row₀, db[id]? = some row₀ ∧ row₀.fault = row.fault ∧ row₀.netId = row.netId := by
  rw [invalidateStaleRedundant, TreeMap.getElem?_map, Option.map_eq_some_iff] at h
  obtain ⟨row₀, hrow₀, rfl⟩ := h
  refine ⟨row₀, hrow₀, ?_⟩
  split <;> exact ⟨rfl, rfl⟩

/-- A redundant row with a valid verdict was there before. -/
theorem FaultTable.getElem?_of_invalidate
    (h : (db.invalidateStaleRedundant modelId)[id]? = some row) (hred : row.status = .redundant) :
    db[id]? = some row := by
  rw [invalidateStaleRedundant, TreeMap.getElem?_map, Option.map_eq_some_iff] at h
  obtain ⟨row₀, hrow₀, rfl⟩ := h
  split at hred
  · cases hred
  · rename_i hvalid
    rw [if_neg hvalid]
    exact hrow₀

/-- The table the rounds begin with. -/
theorem sound_initialTable {core : Core} {preflight : Option PreflightData}
    (hstems : ∀ data ∈ preflight, ∀ (id : ℕ) (row : FaultRow), db[id]? = some row →
      row.netId ∈ data.redundantStemIds → core.Undetectable row.fault) :
    Sound core (db.invalidateStaleRedundant modelId) (initialTable modelId preflight db) := by
  unfold initialTable
  cases preflight with
  | none => exact ⟨fun hrow => ⟨_, hrow, rfl⟩, fun hrow _ => .inl hrow⟩
  | some data =>
    have hrows : ∀ {id : ℕ} {row' : FaultRow},
        ((db.invalidateStaleRedundant modelId).precertifyRedundant data.redundantStemIds
          modelId)[id]? = some row' →
        ∃ row, (db.invalidateStaleRedundant modelId)[id]? = some row ∧ row.fault = row'.fault ∧
          (row' = row ∨ core.Undetectable row.fault) := by
      intro id row' hrow'
      rw [FaultTable.precertifyRedundant, TreeMap.getElem?_map, Option.map_eq_some_iff] at hrow'
      obtain ⟨row, hrow, rfl⟩ := hrow'
      refine ⟨row, hrow, ?_⟩
      split
      · rename_i hstem
        obtain ⟨row₀, hrow₀, hfault, hnet⟩ := FaultTable.invalidate_row hrow
        exact ⟨rfl, .inr (hfault ▸ hstems data rfl id row₀ hrow₀ (hnet ▸ hstem.1))⟩
      · exact ⟨rfl, .inl rfl⟩
    refine ⟨fun hrow' => ?_, fun hrow' _ => ?_⟩
    · obtain ⟨row, hrow, hfault, -⟩ := hrows hrow'
      exact ⟨row, hrow, hfault⟩
    · obtain ⟨row, hrow, hfault, rfl | hund⟩ := hrows hrow'
      · exact .inl hrow
      · exact .inr (hfault ▸ hund)

/-- **Redundancy verdicts are sound when every accepted vector is graded against
every remaining fault**, for stems that preflight is right about: a fault that a
run marks redundant is detected by no vector. -/
theorem runProgressiveNativeAtpg_redundant (core : Core) (cfg : AtpgConfig)
    (names inputOrder : List String) (modelId : String) (preflight : Option PreflightData)
    (db : FaultTable) (hexact : core.Exact names db.Holds) (hdrop : cfg.faultDropSat = true)
    (hstems : ∀ data ∈ preflight, ∀ (id : ℕ) (row : FaultRow), db[id]? = some row →
      row.netId ∈ data.redundantStemIds → core.Undetectable row.fault)
    (id : ℕ) (row : FaultRow)
    (hrow : (finalTable
      (runProgressiveNativeAtpg core cfg inputOrder modelId preflight db))[id]? = some row)
    (hred : row.status = .redundant) : db[id]? = some row ∨ core.Undetectable row.fault := by
  have hkept : ∀ f, (db.invalidateStaleRedundant modelId).Holds f → db.Holds f := by
    rintro f ⟨id, row, hrow, hscope, hf⟩
    obtain ⟨row₀, hrow₀, hfault, -⟩ := FaultTable.invalidate_row hrow
    exact ⟨id, row₀, hrow₀, by rw [FaultRow.inScope, hfault]; exact hscope, hfault.trans hf⟩
  have hexact' := hexact.mono hkept
  have hinit : RunInv core names inputOrder (db.invalidateStaleRedundant modelId)
      { db := initialTable modelId preflight db } :=
    ⟨sound_initialTable hstems, fun _ _ _ _ _ _ hkey => by simp at hkey, fun _ => rfl⟩
  have hrun : Ends (runProgressiveNativeAtpg core cfg inputOrder modelId preflight db)
      (fun r => Sound core (db.invalidateStaleRedundant modelId) r.1.db)
      fun st => st.db = db ∨ Sound core (db.invalidateStaleRedundant modelId) st.db := by
    unfold runProgressiveNativeAtpg
    split
    · exact .inl rfl
    split
    · exact .inl rfl
    refine ((RunInv.rounds hexact' hdrop cfg.maxRounds 1 hinit).mono (fun _ h => h)
      fun _ => .inr).bind fun r hr => ?_
    split
    · exact .inr hr.sound
    · exact hr.sound
  have hold : Sound core (db.invalidateStaleRedundant modelId)
      (finalTable (runProgressiveNativeAtpg core cfg inputOrder modelId preflight db)) →
      db[id]? = some row ∨ core.Undetectable row.fault := fun hsound =>
    (hsound.redundant hrow hred).imp_left fun h => FaultTable.getElem?_of_invalidate h hred
  cases hresult : runProgressiveNativeAtpg core cfg inputOrder modelId preflight db with
  | ok r =>
    rw [hresult] at hrun hold
    exact hold hrun
  | error st =>
    rw [hresult] at hrun hold hrow
    rcases hrun with hdb | hsound
    · exact .inl (hdb ▸ hrow)
    · exact hold hsound

/-- The extension on a small netlist, with the cone-restricted solver. -/
def smallCore (g : CachedGraph) : Core := nativeCore .backtrack g true false fun _ => false

/-- A table of faults, numbered from `1`. -/
def tableOf (g : CachedGraph) (faults : List CompactFault) : FaultTable :=
  TreeMap.ofList ((faults.zipIdx 1).map fun p =>
    (p.2, ({ fault := p.1, netId := g.cg.yosysOf p.1.netIndex } : FaultRow)))

/-- A run without random vectors. -/
def smallRun (g : CachedGraph) (faults : List CompactFault) (faultDropSat : Bool) :
    Except Stopped (RunState × Terminal) :=
  runProgressiveNativeAtpg (smallCore g) { randomVectors := 0, faultDropSat } ["a", "b"] "" none
    (tableOf g faults)

/-- What the exactness of the extension rests on can be computed. -/
theorem smallCore_exact {g : CachedGraph} {faults : List CompactFault} (hac : g.ng.Acyclic)
    (hcirc : g.cg.Combinational ∧ g.cg.SingleDriver ∧ g.cg.InputsDriven ∧
      (∀ i < g.cg.netCount, g.cg.Driven i) ∧ (∀ n ∈ g.cg.nodes, ¬ n.IsSource → n.GapFree) ∧
      g.cg.observable ≠ [] ∧ ((Atpg.orderedPis g.parsed g.cg).map Atpg.AtpgPiInfo.compiled).Nodup)
    (hnames : (Atpg.orderedPis g.parsed g.cg).map Atpg.AtpgPiInfo.name = ["a", "b"])
    (hfaults : ∀ p ∈ (tableOf g faults).toList,
      p.2.fault.netIndex < g.cg.netCount ∧ p.2.fault.exclusion = .NONE) :
    (smallCore g).Exact ["a", "b"] (tableOf g faults).Holds := by
  obtain ⟨hcomb, hone, hpi, hdriven, hgap, hobs, hnets⟩ := hcirc
  rw [← hnames]
  refine nativeCore_exact .backtrack ⟨⟨hcomb, hac, hone⟩, hpi, hdriven⟩ hgap hobs
    (by rw [hnames]; decide) hnets true false _ ?_
  rintro f ⟨id, row, hrow, -, rfl⟩
  exact hfaults (id, row) (TreeMap.mem_toList_iff_getElem?_eq_some.2 hrow)

/-- An input that two gates in a row read. -/
def doubledInput : CachedGraph :=
  .load (.ofCells [("a", 2), ("b", 3)] [("y", 5)]
      [("g", .ofPins "AND2" [("A", 2), ("B", 3), ("Y", 4)]),
       ("h", .ofPins "AND2" [("A", 2), ("B", 4), ("Y", 5)])])
    smallCells "fail" ∅ (by decide +kernel) (by decide +kernel)

/-- The input stuck at 0, and its second branch stuck at 1. -/
def doubledInputFaults : List CompactFault := [{ netIndex := 0 }, { netIndex := 4, type := .SA1 }]

/-- The branch makes no difference, and is found redundant. -/
theorem doubledInput_undetectable : ∃ row,
    (finalTable (smallRun doubledInput doubledInputFaults true))[2]? = some row ∧
      row.status = .redundant ∧ (smallCore doubledInput).Undetectable row.fault := by
  have hstatus : ((finalTable (smallRun doubledInput doubledInputFaults true))[2]?).map
      FaultRow.status = some .redundant := by decide +kernel
  obtain ⟨row, hrow, hred⟩ := Option.map_eq_some_iff.1 hstatus
  have hnew : (tableOf doubledInput doubledInputFaults)[2]?.map FaultRow.status =
    some .undetected := by decide +kernel
  refine ⟨row, hrow, hred, (runProgressiveNativeAtpg_redundant (smallCore doubledInput)
    { randomVectors := 0, faultDropSat := true } ["a", "b"] ["a", "b"] "" none
    (tableOf doubledInput doubledInputFaults)
    (smallCore_exact (doubledInput.levelized.acyclic_iff.2 (by decide +kernel)) (by decide +kernel)
      (by decide +kernel) (by decide +kernel)) rfl nofun 2 row hrow hred).resolve_left fun hold => ?_⟩
  rw [hold, Option.map_some, hred] at hnew
  exact absurd hnew (by decide)

/-- One AND gate. -/
def andGate : CachedGraph :=
  .load (.ofCells [("a", 2), ("b", 3)] [("y", 4)]
      [("g", .ofPins "AND2" [("A", 2), ("B", 3), ("Y", 4)])])
    smallCells "fail" ∅ (by decide +kernel) (by decide +kernel)

/-- Without dropping, the vector of the first input is not graded against the
second, whose own candidate is then a duplicate: it is blocked, and in the next
round the fault is redundant, though the vector detects it. -/
theorem andGate_redundant_detectable :
    (smallCore andGate).Exact ["a", "b"]
      (tableOf andGate (enumerateFaults andGate.ng andGate.cg)).Holds ∧
    ((tableOf andGate (enumerateFaults andGate.ng andGate.cg))[3]?).map FaultRow.status =
      some .undetected ∧
    ((finalTable (smallRun andGate (enumerateFaults andGate.ng andGate.cg) false))[3]?).map
      (fun row => (row.status, (smallCore andGate).grade row.fault
        (TreeMap.ofList [("a", true), ("b", true)]))) = some (.redundant, true) :=
  ⟨smallCore_exact (andGate.levelized.acyclic_iff.2 (by decide +kernel)) (by decide +kernel)
    (by decide +kernel) (by decide +kernel), by decide +kernel, by decide +kernel⟩

end FaultFlow.Runner
