/-
# The solver and the simulators behind the loop

What the progressive loop may expect of the extension (`Core.Exact`): the solver
is sound and complete for the vectors the simulators detect.  The solvers of
`Atpg` and the simulators of `Sim` are such an extension, on a combinational
circuit where every net has one driver (`nativeCore_exact`).
-/

import FaultFlow.Atpg.IncrementalVerdict
import FaultFlow.Atpg.WholeCircuit
import FaultFlow.Runner.ProgressiveAtpg

namespace FaultFlow.Runner

open Lib
open Std (TreeMap TreeSet)

/-! ## What is asked of the extension -/

/-- No vector detects the fault. -/
def Core.Undetectable (core : Core) (f : CompactFault) : Prop := ∀ v, core.grade f v = false

/-- The vector gives a value to just these inputs. -/
def Over (names : List String) (v : PiMap) : Prop := ∀ n, n ∈ v ↔ n ∈ names

/-- The blocked pattern of a vector. -/
def blockedKey (names : List String) (v : PiMap) : List Char :=
  names.map fun n => if v.getD n false then '1' else '0'

/-- **The solver is sound and complete, and agrees with the simulators**, on some
faults; `names` are the inputs, in the order of `ordered_pis`. -/
structure Core.Exact (core : Core) (names : List String) (faults : CompactFault → Prop) :
    Prop where
  sat : ∀ {call seconds : ℕ} {f : CompactFault} {blocked : List (List Char)}
    {solved : Atpg.SolveOutcome PiMap}, faults f → Atpg.KeysOk names.length blocked →
    core.solve call seconds f blocked = .ok solved → solved.result = .SAT →
    ∃ v, solved.out = some v ∧ Over names v ∧ core.grade f v = true ∧ blockedKey names v ∉ blocked
  unsat : ∀ {call seconds : ℕ} {f : CompactFault} {blocked : List (List Char)}
    {solved : Atpg.SolveOutcome PiMap}, faults f → Atpg.KeysOk names.length blocked →
    core.solve call seconds f blocked = .ok solved → solved.result = .UNSAT →
    ∀ v, core.grade f v = true → blockedKey names v ∈ blocked
  verify : ∀ {f : CompactFault} {v : PiMap}, faults f → Over names v →
    core.verify f v = core.grade f v
  reads : ∀ {f : CompactFault} {v w : PiMap}, faults f →
    (∀ n ∈ names, v.getD n false = w.getD n false) → core.grade f v = core.grade f w

theorem Core.Exact.mono {core : Core} {names : List String} {faults faults' : CompactFault → Prop}
    (h : core.Exact names faults) (hsub : ∀ f, faults' f → faults f) : core.Exact names faults' :=
  ⟨fun hf => h.sat (hsub _ hf), fun hf => h.unsat (hsub _ hf), fun hf => h.verify (hsub _ hf),
    fun hf => h.reads (hsub _ hf)⟩

/-- The faults of a table that are in scope. -/
def FaultTable.Holds (db : FaultTable) (f : CompactFault) : Prop :=
  ∃ (id : ℕ) (row : FaultRow), db[id]? = some row ∧ row.inScope = true ∧ row.fault = f

/-! ## The native extension -/

open Atpg

/-- The extension on one netlist, in `FUNCTIONAL` mode and without limits. -/
def nativeCore (solver : SatSolver ℕ) (g : CachedGraph) (coneRestrict incremental : Bool)
    (randomBit : ℕ → Bool) : Core where
  solve _ _ f blocked :=
    let options := { blockedPatterns := blocked, coneRestrict := coneRestrict }
    if incremental then
      solveStuckAtFaultIncremental solver g.cg (orderedPis g.parsed g.cg) f options
    else solveStuckAtFault solver g.cg (orderedPis g.parsed g.cg) f options
  verify f v := Golden.detects g.cg (mapVector (orderedPis g.parsed g.cg) v) f
  grade f v := lane 1 (BitParallel.simulateBatch g.cg (mapVector (orderedPis g.parsed g.cg) v)
    (BitParallel.singleBatch f))
  coneSize f :=
    if f.netIndex < g.cg.netCount then
      (extractFaultCone g.cg f.netIndex (buildDriverIndex g.cg) []).inSupport.length
    else 0
  randomBit := randomBit

section Native

variable {g : CachedGraph} (h : g.Complete)
  (hgap : ∀ n ∈ g.cg.nodes, ¬ n.IsSource → n.GapFree) {f : CompactFault}
  (hf : f.netIndex < g.cg.netCount) (hexcl : f.exclusion = .NONE)

include h hgap hf hexcl

/-- The lane of a fault is the golden verdict. -/
theorem nativeCore_grade (solver : SatSolver ℕ) (coneRestrict incremental : Bool)
    (randomBit : ℕ → Bool) (v : PiMap) :
    (nativeCore solver g coneRestrict incremental randomBit).grade f v =
      Golden.detects g.cg (mapVector (orderedPis g.parsed g.cg) v) f := by
  have hforks := g.forksPlaced_of_driven h.comb h.acyclic h.driven
  have hcycles : (mapVector (orderedPis g.parsed g.cg) v).cycles = [] := rfl
  have hfunctional : (mapVector (orderedPis g.parsed g.cg) v).testMode = .FUNCTIONAL := rfl
  show lane 1 (BitParallel.simulateBatch g.cg (mapVector (orderedPis g.parsed g.cg) v)
    (BitParallel.singleBatch f)) = _
  generalize mapVector (orderedPis g.parsed g.cg) v = vec at hcycles hfunctional
  have hmode : Golden.sequenceMode g.cg vec = none := by simp [Golden.sequenceMode, hfunctional]
  have hvec : vec.cyclesFor = [{ inputs := vec.inputs }] := by simp [TestVector.cyclesFor, hcycles]
  rw [g.detects_eq h.comb hcycles hexcl, lane_simulateBatch_eq_combPass h.comb
    (g.topological_of_forksPlaced h.acyclic hforks) h.gatesInOrder hgap hmode hvec rfl
    (singleBatch_wellFormed hexcl) (by omega) (singleBatch_inLane f) (h.driven f.netIndex hf)]
  rfl

omit hgap hexcl in
/-- Whatever the solver, it answers right. -/
theorem nativeCore_solve (solver : SatSolver ℕ) (hobs : g.cg.observable ≠ [])
    (coneRestrict incremental : Bool) (randomBit : ℕ → Bool) (call seconds : ℕ)
    {blocked : List (List Char)} (hok : KeysOk (orderedPis g.parsed g.cg).length blocked) :
    ∃ r, (nativeCore solver g coneRestrict incremental randomBit).solve call seconds f blocked =
        .ok r ∧ Answers g.cg (orderedPis g.parsed g.cg) f blocked r := by
  have hpis : ∀ pi ∈ orderedPis g.parsed g.cg, pi.compiled ∈ g.cg.piNets :=
    fun pi hmem => (mem_orderedPis hmem).1
  have hundriven : ∀ i, g.cg.Observed i → ¬ g.cg.Driven i → i = f.netIndex := by
    intro i hi hdriven
    have hmem : i ∈ List.range g.cg.netCount := hi.mem
      (fun o ho => List.mem_range.2 (lt_of_mem_observable ho))
      fun n hn _ j hj => List.mem_range.2 (g.reads_lt_netCount hn hj)
    exact absurd (h.driven i (List.mem_range.1 hmem)) hdriven
  cases incremental with
  | true => exact exists_solveStuckAtFaultIncremental h.toEquational h.inputs hpis hf solver _ hok
  | false =>
    cases coneRestrict with
    | true => exact exists_solveStuckAtFault_cone h.toEquational h.inputs hpis hf solver _ rfl hok
    | false =>
      exact exists_solveStuckAtFault h.toEquational h.inputs hpis hf solver
        { blockedPatterns := blocked, coneRestrict := false }
        (covers_whole h.comb hobs hundriven) hok

end Native

/-- The emitted map has the names of the inputs. -/
theorem over_emitValues (pis : List AtpgPiInfo) (v : Values) :
    Over (pis.map AtpgPiInfo.name) (emitValues pis v) := by
  intro n
  suffices H : ∀ (m : PiMap), n ∈ pis.foldl (fun out pi => out.insert pi.name (v pi.compiled)) m ↔
      n ∈ m ∨ n ∈ pis.map AtpgPiInfo.name by
    simpa [emitValues] using H ∅
  induction pis with
  | nil => simp
  | cons pi pis ih =>
    intro m
    rw [List.foldl_cons, ih, TreeMap.mem_insert, Std.LawfulEqCmp.compare_eq_iff_eq, List.map_cons,
      List.mem_cons]
    grind

/-- Inputs on distinct nets can be given any values. -/
theorem exists_values_of_nodup {pis : List AtpgPiInfo} (hnets : (pis.map AtpgPiInfo.compiled).Nodup)
    (v : PiMap) : ∃ w : Values, ∀ pi ∈ pis, v.getD pi.name false = w pi.compiled := by
  classical
  refine ⟨fun i => if h : ∃ pi ∈ pis, pi.compiled = i then v.getD h.choose.name false else false,
    fun pi hpi => ?_⟩
  have hex : ∃ pi' ∈ pis, pi'.compiled = pi.compiled := ⟨pi, hpi, rfl⟩
  dsimp only
  rw [dif_pos hex,
    List.inj_on_of_nodup_map hnets hex.choose_spec.1 hpi hex.choose_spec.2]

/-- The vector of a map only depends on the inputs. -/
theorem mapVector_congr {pis : List AtpgPiInfo} {v w : PiMap}
    (h : ∀ pi ∈ pis, v.getD pi.name false = w.getD pi.name false) :
    mapVector pis v = mapVector pis w := by
  unfold mapVector piVector
  congr 1
  refine List.foldl_ext _ _ _ fun out pi hpi => ?_
  dsimp only
  rw [h pi hpi]

/-- **The native extension is exact**, whichever of the solvers it uses. -/
theorem nativeCore_exact (solver : SatSolver ℕ) {g : CachedGraph} (h : g.Complete)
    (hgap : ∀ n ∈ g.cg.nodes, ¬ n.IsSource → n.GapFree) (hobs : g.cg.observable ≠ [])
    (hnames : ((orderedPis g.parsed g.cg).map AtpgPiInfo.name).Nodup)
    (hnets : ((orderedPis g.parsed g.cg).map AtpgPiInfo.compiled).Nodup)
    (coneRestrict incremental : Bool) (randomBit : ℕ → Bool) {faults : CompactFault → Prop}
    (hfaults : ∀ f, faults f → f.netIndex < g.cg.netCount ∧ f.exclusion = .NONE) :
    (nativeCore solver g coneRestrict incremental randomBit).Exact
      ((orderedPis g.parsed g.cg).map AtpgPiInfo.name) faults where
  sat hfault hok hsolve hsat := by
    obtain ⟨hf, hexcl⟩ := hfaults _ hfault
    rw [List.length_map] at hok
    obtain ⟨r, hr, hans⟩ := nativeCore_solve h hf solver hobs coneRestrict incremental
      randomBit _ _ hok
    obtain rfl := Except.ok.inj (hr.symm.trans hsolve)
    obtain ⟨v, w, ht, hout⟩ := hans.sat hsat
    refine ⟨_, hout, over_emitValues _ v, ?_, ?_⟩
    · rw [nativeCore_grade h hgap hf hexcl]
      exact ht.detects h hexcl hf rfl fun i hi =>
        piVector_inputs (fun pi hpi => getD_emitValues hnames v hpi) hi
    · have hkey := ht.unblocked
      rw [← patternKey_emitValues hnames] at hkey
      simpa [blockedKey, Atpg.patternKey, Function.comp_def] using hkey
  unsat hfault hok hsolve hunsat v hgrade := by
    obtain ⟨hf, hexcl⟩ := hfaults _ hfault
    rw [List.length_map] at hok
    obtain ⟨r, hr, hans⟩ := nativeCore_solve h hf solver hobs coneRestrict incremental
      randomBit _ _ hok
    obtain rfl := Except.ok.inj (hr.symm.trans hsolve)
    rw [nativeCore_grade h hgap hf hexcl] at hgrade
    by_contra hkey
    refine hans.unsat hunsat _ _ (isTest_replay h hexcl hf rfl hgrade fun hmem => hkey ?_)
    obtain ⟨w, hw⟩ := exists_values_of_nodup hnets v
    have hinputs : ∀ pi ∈ orderedPis g.parsed g.cg, Golden.combPass g.cg
        (mapVector (orderedPis g.parsed g.cg) v) none pi.compiled = v.getD pi.name false := by
      intro pi hpi
      have hmem := (mem_orderedPis hpi).1
      rw [h.combPass_input _ hmem]
      exact (piVector_inputs hw hmem).trans (hw pi hpi).symm
    rw [List.map_congr_left hinputs] at hmem
    simpa [blockedKey, keyOf, Function.comp_def] using hmem
  verify hfault _ := by
    obtain ⟨hf, hexcl⟩ := hfaults _ hfault
    exact (nativeCore_grade h hgap hf hexcl solver coneRestrict incremental randomBit _).symm
  reads hfault hagree := by
    obtain ⟨hf, hexcl⟩ := hfaults _ hfault
    rw [nativeCore_grade h hgap hf hexcl, nativeCore_grade h hgap hf hexcl,
      mapVector_congr fun pi hpi => hagree pi.name (List.mem_map_of_mem hpi)]

end FaultFlow.Runner
