/-
# Compaction of a vector set

`faultflow/runner/compaction.py`.  `compact_run` sweeps the vectors from the last to the first
and keeps those that detect a target which no later kept vector detects.
`compact_run_dynamic` starts from the same vectors, extracts from each the inputs it needs (its
cube), merges compatible cubes and grades every merge, under several orders; it keeps the result
only when that detects every target with no more vectors than the sweep.

The grading is a parameter: `detects v t` says that `compaction_detections_preloaded` reports
target `t` for vector `v`.  Left out are the run rows and the patterns of the database, which are
written from the returned vectors, and the log.  `shuffle` stands for `random.Random(i).shuffle`.
-/

import FaultFlow.Lib.Sweep
import FaultFlow.Runner.ProgressiveAtpg
import Mathlib.Data.Finset.Lattice.Basic
import Mathlib.Data.List.GetD

namespace FaultFlow.Runner

open Std (TreeMap)

/-- `VectorSet`. -/
structure VectorSet where
  source : String
  inputOrder : List String
  vectors : List PiMap

/-- The vector with an index. -/
def VectorSet.at (vs : VectorSet) (idx : ℕ) : PiMap := vs.vectors.getD idx ∅

section Compaction

variable (detects : PiMap → ℕ → Bool)

/-- `core.compaction_detections_preloaded` on some of the targets. -/
def detectAmong (vector : PiMap) (targets : Finset ℕ) : Finset ℕ :=
  targets.filter fun t => detects vector t

/-- The loop over the vectors, from the last: the indices that are kept, each with the targets
that are new there. -/
def reverseSweep (vs : VectorSet) (targets : Finset ℕ) : List (ℕ × Finset ℕ) :=
  (Lib.Sweep.run (fun idx t => detects (vs.at idx) t) targets
    (List.range vs.vectors.length).reverse).kept

/-- `compact_run`. -/
def compactRun (vs : VectorSet) (targets : Finset ℕ) : VectorSet :=
  if vs.vectors.length = 0 then vs
  else
    let keptIndices := ((reverseSweep detects vs targets).map Prod.fst).insertionSort (· ≤ ·)
    { source := "compacted_" ++ vs.source
      inputOrder := vs.inputOrder
      vectors := keptIndices.map vs.at }

/-- The threshold `_DYNAMIC_DENSE_FAULTS`. -/
def dynamicDenseFaults : ℕ := 8

/-- `_extract_cube`: the inputs that matter for the targets. -/
def extractCube (vector : PiMap) (inputOrder : List String) (targets : Finset ℕ) : PiMap :=
  inputOrder.foldl (fun spec name =>
    if targets ⊆ detectAmong detects (vector.insert name false) targets ∧
        targets ⊆ detectAmong detects (vector.insert name true) targets then spec
    else spec.insert name (vector.getD name false)) ∅

/-- `_cubes_compatible`. -/
def cubesCompatible (a b : PiMap) : Bool :=
  b.toList.all fun p => match a[p.1]? with
    | none => true
    | some value => p.2 == value

/-- A contribution with its cube. -/
structure Cube where
  spec : PiMap
  vector : PiMap
  newly : Finset ℕ

/-- A packed vector under construction. -/
structure OpenCube where
  spec : PiMap
  members : Finset ℕ
  vector : PiMap

/-- `dict.update`. -/
def updateMap (m spec : PiMap) : PiMap := spec.toList.foldl (fun m p => m.insert p.1 p.2) m

/-- An open cube with one more, if their targets stay detected. -/
def OpenCube.merge (oc : OpenCube) (cube : Cube) : Option OpenCube :=
  if cubesCompatible oc.spec cube.spec then
    let trial := updateMap oc.vector cube.spec
    let members := oc.members ∪ cube.newly
    if members ⊆ detectAmong detects trial members then
      some { spec := updateMap oc.spec cube.spec, members := members, vector := trial }
    else none
  else none

/-- The first open cube that takes the cube, or a new one. -/
def placeCube : List OpenCube → Cube → List OpenCube
  | [], cube => [{ spec := cube.spec, members := cube.newly, vector := cube.vector }]
  | oc :: ocs, cube =>
    match OpenCube.merge detects oc cube with
    | some merged => merged :: ocs
    | none => oc :: placeCube ocs cube

/-- `_pack_cubes`. -/
def packCubes (cubes : List Cube) : List PiMap :=
  (cubes.foldl (placeCube detects) []).map OpenCube.vector

variable (shuffle : ℕ → List Cube → List Cube) (vs : VectorSet)

/-- `_order_cubes`. -/
def orderCubes (cubes : List Cube) : ℕ → List Cube
  | 0 => cubes
  | 1 => cubes.insertionSort fun a b => a.spec.size ≤ b.spec.size
  | 2 => cubes.insertionSort fun a b => b.spec.size ≤ a.spec.size
  | orderIdx => shuffle orderIdx cubes

/-- Steps 1 to 3 of `compact_run_dynamic`: the contributions, their cubes, and the shortest of
the packings. -/
def packBest (targets : Finset ℕ) (packOrders : ℕ) : List PiMap :=
  let cubes := (reverseSweep detects vs targets).map fun p =>
    let vector := vs.at p.1
    let spec := if dynamicDenseFaults < p.2.card then
        vs.inputOrder.foldl (fun spec name => spec.insert name (vector.getD name false)) ∅
      else extractCube detects vector vs.inputOrder p.2
    { spec := spec, vector := vector, newly := p.2 : Cube }
  let best := (List.range (max 1 packOrders)).foldl (fun best orderIdx =>
    let candidate := packCubes detects (orderCubes shuffle cubes orderIdx)
    match best with
    | none => some candidate
    | some vectors => if candidate.length < vectors.length then some candidate else best) none
  best.getD []

/-- `compact_run_dynamic`. -/
def compactRunDynamic (targets : Finset ℕ) (packOrders : ℕ) : VectorSet :=
  if vs.vectors.length = 0 then vs
  else
    let packed := packBest detects shuffle vs targets packOrders
    let packedDetected := packed.foldl (fun found v => found ∪ detectAmong detects v targets) ∅
    if ¬ targets ⊆ packedDetected ∨ (reverseSweep detects vs targets).length < packed.length then
      compactRun detects vs targets
    else
      { source := "compacted_" ++ vs.source
        inputOrder := vs.inputOrder
        vectors := packed }

/-! ## Coverage -/

/-- Some vector of the set detects the target. -/
def VectorSet.Detects (t : ℕ) : Prop := ∃ v ∈ vs.vectors, detects v t = true

variable {detects} {vs} {targets : Finset ℕ}

theorem VectorSet.exists_at {v : PiMap} :
    v ∈ vs.vectors ↔ ∃ idx < vs.vectors.length, vs.at idx = v := by
  rw [List.mem_iff_getElem]
  refine exists_congr fun idx => ⟨fun ⟨h, hv⟩ => ⟨h, ?_⟩, fun ⟨h, hv⟩ => ⟨h, ?_⟩⟩
  · rw [VectorSet.at, List.getD_eq_getElem _ _ h, hv]
  · rw [← hv, VectorSet.at, List.getD_eq_getElem _ _ h]

/-- The indices of a set give its vectors. -/
theorem VectorSet.map_at : (List.range vs.vectors.length).map vs.at = vs.vectors := by
  refine List.ext_getElem (by simp) fun i _ h => ?_
  rw [List.getElem_map, List.getElem_range, VectorSet.at, List.getD_eq_getElem _ _ h]

/-- The sweep keeps indices from the last to the first. -/
theorem keptIndices_eq (detects : PiMap → ℕ → Bool) (vs : VectorSet) (targets : Finset ℕ) :
    ((reverseSweep detects vs targets).map Prod.fst).insertionSort (· ≤ ·) =
        ((reverseSweep detects vs targets).map Prod.fst).reverse ∧
      ((reverseSweep detects vs targets).map Prod.fst).reverse.Sublist
        (List.range vs.vectors.length) := by
  have hsub : ((reverseSweep detects vs targets).map Prod.fst).reverse.Sublist
      (List.range vs.vectors.length) := by
    have h := (Lib.Sweep.kept_sublist (fun idx t => detects (vs.at idx) t) targets
      (List.range vs.vectors.length).reverse).reverse
    rwa [List.reverse_reverse] at h
  have hsorted : ((reverseSweep detects vs targets).map Prod.fst).reverse.Pairwise (· ≤ ·) :=
    List.pairwise_le_range.sublist hsub
  exact ⟨((List.perm_insertionSort (· ≤ ·) _).trans
    (List.reverse_perm _).symm).eq_of_pairwise' (List.pairwise_insertionSort (· ≤ ·)
      ((reverseSweep detects vs targets).map Prod.fst)) hsorted, hsub⟩

/-- The kept vectors stand in the order of the set. -/
theorem compactRun_sublist : (compactRun detects vs targets).vectors.Sublist vs.vectors := by
  unfold compactRun
  split
  · exact List.Sublist.refl _
  · obtain ⟨heq, hsub⟩ := keptIndices_eq detects vs targets
    have h := hsub.map vs.at
    rwa [VectorSet.map_at, ← heq] at h

/-- As many as the sweep keeps. -/
theorem length_compactRun (h : vs.vectors.length ≠ 0) :
    (compactRun detects vs targets).vectors.length = (reverseSweep detects vs targets).length := by
  rw [compactRun, if_neg h]
  simp

/-- **The kept vectors detect what the set detects.** -/
theorem compactRun_detects {t : ℕ} (ht : t ∈ targets) (h : vs.Detects detects t) :
    (compactRun detects vs targets).Detects detects t := by
  unfold compactRun
  split
  · exact h
  · obtain ⟨v, hv, hd⟩ := h
    obtain ⟨idx, hidx, rfl⟩ := VectorSet.exists_at.1 hv
    have hcovered : ∃ idx ∈ (List.range vs.vectors.length).reverse, detects (vs.at idx) t = true :=
      ⟨idx, List.mem_reverse.2 (List.mem_range.2 hidx), hd⟩
    obtain ⟨p, hp, hpt⟩ := Lib.Sweep.exists_kept_of_covered ht hcovered
    refine ⟨vs.at p.1, List.mem_map_of_mem ?_, Lib.Sweep.covers_of_mem_kept hp hpt⟩
    exact (List.mem_insertionSort _).2 (List.mem_map_of_mem hp)

theorem mem_foldl_detectAmong {packed : List PiMap} {t : ℕ} :
    t ∈ packed.foldl (fun found v => found ∪ detectAmong detects v targets) ∅ ↔
      t ∈ targets ∧ ∃ v ∈ packed, detects v t = true := by
  suffices H : ∀ found : Finset ℕ,
      t ∈ packed.foldl (fun found v => found ∪ detectAmong detects v targets) found ↔
        t ∈ found ∨ (t ∈ targets ∧ ∃ v ∈ packed, detects v t = true) by
    simpa using H ∅
  induction packed with
  | nil => simp
  | cons v packed ih =>
    intro found
    rw [List.foldl_cons, ih, Finset.mem_union, detectAmong, Finset.mem_filter,
      List.exists_mem_cons_iff]
    tauto

/-- **Compaction keeps the detections.**  Reverse order gives vectors of the set in their order
which detect every target that the set detects; packing gives vectors that detect these too,
and no more of them. -/
theorem compaction_keeps_detections (detects : PiMap → ℕ → Bool)
    (shuffle : ℕ → List Cube → List Cube) (vs : VectorSet) (targets : Finset ℕ)
    (packOrders : ℕ) :
    (compactRun detects vs targets).vectors.Sublist vs.vectors ∧
    (∀ t ∈ targets, vs.Detects detects t → (compactRun detects vs targets).Detects detects t) ∧
    (∀ t ∈ targets, vs.Detects detects t →
      (compactRunDynamic detects shuffle vs targets packOrders).Detects detects t) ∧
    (compactRunDynamic detects shuffle vs targets packOrders).vectors.length ≤
      (compactRun detects vs targets).vectors.length := by
  refine ⟨compactRun_sublist, fun t ht h => compactRun_detects ht h, fun t ht h => ?_, ?_⟩
  · unfold compactRunDynamic
    split
    · exact h
    · dsimp only
      split
      · exact compactRun_detects ht h
      · rename_i hkeep
        -- the safety net has found every target among the packed vectors
        have hall := not_not.1 (not_or.1 hkeep).1
        exact (mem_foldl_detectAmong.1 (hall ht)).2
  · unfold compactRunDynamic
    split
    · rename_i hzero
      rw [compactRun, if_pos hzero]
    · rename_i hne
      dsimp only
      split
      · exact le_rfl
      · rename_i hkeep
        rw [length_compactRun hne]
        exact not_lt.1 (not_or.1 hkeep).2

/-- **No kept vector is spare.**  Each detects a target that no vector kept after it detects, so
that no more vectors are kept than there are targets. -/
theorem compactRun_irredundant (detects : PiMap → ℕ → Bool) (vs : VectorSet) (targets : Finset ℕ) :
    ∃ owned : List (PiMap × ℕ), (compactRun detects vs targets).vectors = owned.map Prod.fst ∧
      (∀ p ∈ owned, p.2 ∈ targets ∧ detects p.1 p.2 = true) ∧
      owned.Pairwise (fun p q => detects q.1 p.2 = false) ∧ owned.length ≤ targets.card := by
  unfold compactRun
  split
  · exact ⟨[], List.eq_nil_of_length_eq_zero ‹_›, by simp, .nil, by simp⟩
  have hrun := Lib.Sweep.irredundant_run (fun idx t => detects (vs.at idx) t) targets
    (List.range vs.vectors.length).reverse
  choose! target htarget using hrun.owns
  let owned := ((reverseSweep detects vs targets).map fun p => (vs.at p.1, target p)).reverse
  have howned : ∀ p ∈ owned, p.2 ∈ targets ∧ detects p.1 p.2 = true := by
    intro p hp
    obtain ⟨q, hq, rfl⟩ := List.mem_map.1 (List.mem_reverse.1 hp)
    exact ⟨(htarget q hq).2, Lib.Sweep.covers_of_mem_kept hq (htarget q hq).1⟩
  have hpair : owned.Pairwise fun p q => detects q.1 p.2 = false := by
    rw [List.pairwise_reverse, List.pairwise_map]
    exact hrun.first.imp_of_mem fun {q p} _ hp hqp => hqp _ (htarget p hp).1
  refine ⟨owned, ?_, howned, hpair, ?_⟩
  · rw [(keptIndices_eq detects vs targets).1]
    simp [owned, Function.comp_def]
  · -- the targets are distinct
    have hnodup : (owned.map Prod.snd).Nodup := by
      refine List.pairwise_map.2 (hpair.imp_of_mem fun {p q} _ hq hpq heq => ?_)
      simp [heq, (howned q hq).2] at hpq
    rw [← List.length_map Prod.snd, ← List.toFinset_card_of_nodup hnodup]
    refine Finset.card_le_card fun t ht => ?_
    obtain ⟨p, hp, rfl⟩ := List.mem_map.1 (List.mem_toFinset.1 ht)
    exact (howned p hp).1

end Compaction

end FaultFlow.Runner
