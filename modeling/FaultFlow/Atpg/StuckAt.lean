/-
# The stuck-at solver finds exactly the tests

An `IsTest` is a pair of machines with unblocked inputs that differ on an observed
net.  Restricted to the cone of the fault, the clauses have a model exactly when a
test exists, and the inputs of the model are those of a test
(`exists_solveStuckAtFault_cone`).  Only `Covers` is used of the masks
(`exists_solveStuckAtFault`), so other masks follow the same way.
-/

import FaultFlow.Atpg.DualRail
import FaultFlow.IR.Ports

namespace FaultFlow.Atpg

open Lib GraphCompiler
open Std (TreeMap)

/-- **A test**: the values of the good and the faulty machine for unblocked inputs,
with a difference on one of the nets `D`. -/
structure IsTest (cg : CompiledSimGraph) (pis : List AtpgPiInfo) (f : CompactFault)
    (blocked : List (List Char)) (D : List CompiledNetIndex) (v w : Values) : Prop where
  pair : Assign.TestPair cg.gateAssigns f.netIndex f.value v w
  unblocked : keyOf (pis.map fun pi => v pi.compiled) ∉ blocked
  differs : ∃ o ∈ D, v o ≠ w o

/-! ## The clauses of `solve_stuck_at_fault` -/

/-- What the clauses of `solve_stuck_at_fault` say of an assignment. -/
structure StuckAtModel (cg : CompiledSimGraph) (pis : List AtpgPiInfo) (f : CompactFault)
    (blocked : List (List Char)) (masks : ConeMasks) (a : ℕ → Bool) : Prop where
  nodes : ∀ n ∈ cg.nodes, ¬ n.IsSource →
    NodeHolds masks.inOutcone f.netIndex (masks.inSupport n.out) a n
  tied : ∀ pi ∈ pis, pi.compiled ≠ f.netIndex → masks.inOutcone pi.compiled = true →
    goodOf a pi.compiled = faultyOf a pi.compiled
  unblocked : keyOf (pis.map fun pi => goodOf a pi.compiled) ∉ blocked
  stuck : faultyOf a f.netIndex = f.value
  diffs : Satisfies a (diffClauses (nextVar cg.netCount) masks.observed)
  some : Std.Sat.CNF.Clause.eval a (diffLits (nextVar cg.netCount) masks.observed) = true

variable {a : ℕ → Bool} {f : CompactFault} {pis : List AtpgPiInfo}

theorem satisfies_tiePis {masks : ConeMasks} : Satisfies a (pis.flatMap (tiePi masks f)) ↔
      ∀ pi ∈ pis, pi.compiled ≠ f.netIndex → masks.inOutcone pi.compiled = true →
        goodOf a pi.compiled = faultyOf a pi.compiled := by
  rw [satisfies_flatMap]
  refine forall₂_congr fun pi _ => ?_
  unfold tiePi
  split
  · rename_i hc
    rw [satisfies_addEquiv]
    simp [hc, goodOf, faultyOf]
  · rename_i hc
    simp only [satisfies_nil, true_iff]
    exact fun hne hO => absurd ⟨hne, hO⟩ hc

variable {cg : CompiledSimGraph} {blocked : List (List Char)}

/-- **The clauses mean what `StuckAtModel` says**, for well-formed blocked patterns
and at least one observed net. -/
theorem exists_stuckAtCnf (hcomb : cg.Combinational) (pis : List AtpgPiInfo) (f : CompactFault)
    (hok : KeysOk pis.length blocked) {masks : ConeMasks} (hobs : masks.observed ≠ []) :
    ∃ cnf, stuckAtCnf cg pis f blocked masks = .ok cnf ∧
      ∀ a, Satisfies a cnf ↔ StuckAtModel cg pis f blocked masks a := by
  obtain ⟨nodes, hnodes, hnodesat⟩ := exists_encodeNodes hcomb masks f []
  have hlits : KeysOk (pis.map fun pi => freeLit pi.compiled).length blocked := by simpa using hok
  obtain ⟨block, hblock, hblocksat⟩ := exists_blockPatterns "PIs" hlits
    ([] ++ nodes ++ pis.flatMap (tiePi masks f))
  refine ⟨[] ++ nodes ++ pis.flatMap (tiePi masks f) ++ block ++ addUnit (faultLit f) ++
    diffClauses (nextVar cg.netCount) masks.observed ++
    [diffLits (nextVar cg.netCount) masks.observed], ?_, fun a => ?_⟩
  · rw [stuckAtCnf, hnodes]
    show (do let cnf ← List.foldlM _ _ _; addMiter _ _ _) = _
    rw [hblock]
    show addMiter _ _ _ = _
    rw [addMiter, if_neg (by simpa using hobs)]
  · simp only [List.nil_append, satisfies_append, satisfies_cons, satisfies_nil, and_true,
      hnodesat, hblocksat, satisfies_tiePis, satisfies_addUnit, litValue_faultLit, List.map_map,
      Function.comp_def, litValue_freeLit]
    constructor
    · rintro ⟨⟨⟨⟨⟨h1, h2⟩, h3⟩, h4⟩, h5⟩, h6⟩
      exact ⟨h1, h2, h3, h4, h5, h6⟩
    · rintro ⟨h1, h2, h3, h4, h5, h6⟩
      exact ⟨⟨⟨⟨⟨h1, h2⟩, h3⟩, h4⟩, h5⟩, h6⟩

section Cone

variable {g : CachedGraph} (h : g.Equational) (hpi : g.cg.InputsDriven)
  (hpis : ∀ pi ∈ pis, pi.compiled ∈ g.cg.piNets) {D : List CompiledNetIndex} {v w : Values}
  {m : CompiledNetIndex → Bool}

/-- A test's difference is in the cone. -/
theorem IsTest.mem_cone {out : List CompiledNetIndex} (ht : IsTest g.cg pis f blocked D v w)
    (h : g.Equational) (hout : Assign.IsCone g.cg.gateAssigns f.netIndex {i | i ∈ out}) :
    ∃ o ∈ D, o ∈ out ∧ v o ≠ w o := by
  obtain ⟨o, ho, hne⟩ := ht.differs
  refine ⟨o, ho, ?_, hne⟩
  by_contra hnot
  exact hne (ht.pair.eq_off_cone h.rankedBy hout.toIsUpper hnot).symm

/-- The values of a pair of machines satisfy the clauses of every gate. -/
theorem nodeHolds_of_testPair (h : g.Equational)
    (hm : Assign.IsUpper g.cg.gateAssigns f.netIndex {i | m i = true})
    (hpair : Assign.TestPair g.cg.gateAssigns f.netIndex f.value v w)
    (ha : Agrees g.cg.netCount a v w) {n : SimNode} (hn : n ∈ g.cg.nodes) (hsrc : ¬ n.IsSource)
    (good : Bool) : NodeHolds m f.netIndex good a n := by
  have hlt : ∀ i, i = n.out ∨ i ∈ n.inputNets → i < g.cg.netCount := by
    rintro i (rfl | hi)
    · exact g.out_lt_netCount hn
    · exact g.reads_lt_netCount hn hi
  exact eqHolds_gateAssign.1 (EqHolds.of_testPair h.rankedBy hm hpair
    (CompiledSimGraph.mem_gateAssigns.2 ⟨n, hn, hsrc, rfl⟩) (fun i hi => (ha i (hlt i hi)).1)
    (fun i hi => (ha i (hlt i hi)).2) good)

include hpi h in
/-- An input in the cone of a fault is the faulty net itself. -/
theorem eq_of_mem_cone {O : Set CompiledNetIndex} {i n : CompiledNetIndex}
    (hO : Assign.IsCone g.cg.gateAssigns n O) (hi : i ∈ g.cg.piNets) (hiO : i ∈ O) : i = n := by
  by_contra hne
  exact h.single.not_gateDriven hpi hi (CompiledSimGraph.mem_outs_gateAssigns.1 (hO.driven i hiO hne))

include h hpi hpis in
/-- The inputs have no equation, so a pair of machines with the values of a model
where nothing drives a net has its inputs. -/
theorem eq_goodOf_of_base (hbase : ∀ i ∉ Assign.outs g.cg.gateAssigns, v i = goodOf a i) :
    ∀ pi ∈ pis, v pi.compiled = goodOf a pi.compiled := fun pi hmem =>
  hbase _ fun hgate => h.single.not_gateDriven hpi (hpis pi hmem)
    (CompiledSimGraph.mem_outs_gateAssigns.1 hgate)

include h hpi hpis in
/-- **Models give tests.**  Values that fit the equations of a set closed under
fan-in and differ on one of its nets are those of a test, with the same inputs. -/
theorem exists_isTest (hm : Assign.IsUpper g.cg.gateAssigns f.netIndex {i | m i = true})
    {S : Set CompiledNetIndex} (hS : Assign.BackClosed g.cg.gateAssigns S)
    (hD : ∀ o ∈ D, o ∈ S ∧ m o = true)
    (hnodes : ∀ n ∈ g.cg.nodes, ¬ n.IsSource → n.out ∈ S → NodeHolds m f.netIndex true a n)
    (htied : ∀ i ∈ S, m i = true → ¬ g.cg.GateDriven i → i ≠ f.netIndex → faultyOf a i = goodOf a i)
    (hstuck : faultyOf a f.netIndex = f.value)
    (hkey : keyOf (pis.map fun pi => goodOf a pi.compiled) ∉ blocked)
    (hdiff : ∃ o ∈ D, goodOf a o ≠ faultyOf a o) : ∃ v w, IsTest g.cg pis f blocked D v w ∧
      ∀ pi ∈ pis, v pi.compiled = goodOf a pi.compiled := by
  have heqs : ∀ e ∈ g.cg.gateAssigns, e.out ∈ S → EqHolds m f.netIndex true a e := by
    intro e he hin
    obtain ⟨n, hn, hsrc, rfl⟩ := CompiledSimGraph.mem_gateAssigns.1 he
    exact hnodes n hn hsrc hin
  have htied' : ∀ i ∈ S, m i = true → i ∉ Assign.outs g.cg.gateAssigns → i ≠ f.netIndex →
      faultyOf a i = goodOf a i := fun i hi hmi hgate hne =>
    htied i hi hmi (mt CompiledSimGraph.mem_outs_gateAssigns.2 hgate) hne
  obtain ⟨v, w, hpair, hdiff, -, hbase⟩ :=
    exists_pair_of_eqs h.rankedBy hm h.nodup hS heqs hstuck htied' hD hdiff
  have hin := eq_goodOf_of_base h hpi hpis hbase
  refine ⟨v, w, ⟨hpair, ?_, hdiff⟩, hin⟩
  rwa [List.map_congr_left hin]

end Cone

/-! ## A right answer -/

/-- The map of the inputs' values. -/
def emitValues (pis : List AtpgPiInfo) (v : Values) : TreeMap String Bool :=
  pis.foldl (fun out pi => out.insert pi.name (v pi.compiled)) ∅

/-- **A right answer**: `SAT` comes with the inputs of a test, and `UNSAT` means
that there is none. -/
structure Answers (cg : CompiledSimGraph) (pis : List AtpgPiInfo) (f : CompactFault)
    (blocked : List (List Char)) (r : SolveOutcome (TreeMap String Bool)) : Prop where
  known : r.result = .SAT ∨ r.result = .UNSAT
  sat : r.result = .SAT → ∃ v w, IsTest cg pis f blocked cg.observable v w ∧
    r.out = some (emitValues pis v)
  unsat : r.result = .UNSAT → ∀ v w, ¬ IsTest cg pis f blocked cg.observable v w

/-- Two right answers have the same verdict. -/
theorem Answers.result_eq {r r' : SolveOutcome (TreeMap String Bool)}
    (h : Answers cg pis f blocked r) (h' : Answers cg pis f blocked r') :
    r.result = r'.result := by
  rcases h.known with hr | hr <;> rcases h'.known with hr' | hr'
  · rw [hr, hr']
  · obtain ⟨v, w, ht, -⟩ := h.sat hr
    exact absurd ht (h'.unsat hr' v w)
  · obtain ⟨v, w, ht, -⟩ := h'.sat hr'
    exact absurd ht (h.unsat hr v w)
  · rw [hr, hr']

/-- Without tests, `UNSAT` is the right answer. -/
theorem answers_unsat (h : ∀ v w, ¬ IsTest cg pis f blocked cg.observable v w) :
    Answers cg pis f blocked { result := .UNSAT, out := none } :=
  ⟨.inr rfl, nofun, fun _ => h⟩

/-- The values of the inputs in a model are those of a test. -/
def GivesTest (cg : CompiledSimGraph) (pis : List AtpgPiInfo) (f : CompactFault)
    (blocked : List (List Char)) (a : ℕ → Bool) : Prop :=
  ∃ v w, IsTest cg pis f blocked cg.observable v w ∧
    ∀ pi ∈ pis, v pi.compiled = goodOf a pi.compiled

theorem emit_eq_emitValues {v : Values} (var : CompiledNetIndex → ℕ)
    (h : ∀ pi ∈ pis, v pi.compiled = a (var pi.compiled)) :
    emit pis var a = emitValues pis v := by
  refine List.foldl_ext _ _ _ fun out pi hpi => ?_
  rw [h pi hpi]

/-- The test of a model is a right answer. -/
theorem GivesTest.answers (h : GivesTest cg pis f blocked a) :
    Answers cg pis f blocked { result := .SAT, out := some (emit pis freeVar a) } := by
  obtain ⟨v, w, ht, hin⟩ := h
  exact ⟨.inl rfl, fun _ => ⟨v, w, ht, by rw [emit_eq_emitValues freeVar hin]⟩, nofun⟩

/-- **Clauses whose models are the tests** give right answers, whatever the solver. -/
theorem answers_solveAndEmit (solver : SatSolver ℕ) {cnf : Cnf}
    (hsound : ∀ a, Satisfies a cnf → GivesTest cg pis f blocked a)
    (hcomplete : ∀ v w, IsTest cg pis f blocked cg.observable v w → ∃ a, Satisfies a cnf) :
    Answers cg pis f blocked (solveAndEmit solver (emit pis freeVar) cnf) := by
  unfold solveAndEmit
  split
  · rename_i a ha
    exact (hsound a (solver.sound cnf a ha)).answers
  · rename_i hnone
    refine answers_unsat fun v w ht => ?_
    obtain ⟨a, ha⟩ := hcomplete v w ht
    exact solver.complete cnf hnone a ha

section ConeSolver

variable {g : CachedGraph} (h : g.Equational) (hpi : g.cg.InputsDriven)
  (hpis : ∀ pi ∈ pis, pi.compiled ∈ g.cg.piNets) (hf : f.netIndex < g.cg.netCount)
  {i o : CompiledNetIndex}

include hpi in
theorem lt_of_mem_piNets (hi : i ∈ g.cg.piNets) : i < g.cg.netCount := by
  obtain ⟨n, hn, -, rfl⟩ := hpi i hi
  exact g.out_lt_netCount hn

theorem lt_of_yosysToCompiled {y : YosysNetID} (hy : g.cg.yosysToCompiled[y]? = some i) :
    i < g.cg.netCount := by
  rw [g.yosysToCompiled_eq] at hy
  exact lt_of_lt_of_le (g.index_valid.lt hy) g.stemCount_le_netCount

theorem lt_of_mem_observable (ho : o ∈ g.cg.observable) : o < g.cg.netCount := by
  obtain ⟨y, hy⟩ := g.isStem_of_observable ho
  exact lt_of_yosysToCompiled hy

/-- The masks of the cone. -/
theorem coneMasks_eq (g : CachedGraph) (net : CompiledNetIndex) (obs : List CompiledNetIndex) :
    (buildConeMasks g.cg net obs true).inOutcone =
        (fun i => decide (i ∈ outcone g.cg net)) ∧
      (buildConeMasks g.cg net obs true).inSupport =
        (fun i => decide (i ∈ support g.cg g.cg.driverIndex (outcone g.cg net))) ∧
      (buildConeMasks g.cg net obs true).redundant =
        (buildConeMasks g.cg net obs true).observed.isEmpty := by
  have hdriver : (if g.cg.driverIndex.isEmpty then buildDriverIndex g.cg else g.cg.driverIndex) =
      g.cg.driverIndex := by
    rw [buildDriverIndex, ← g.driverIndex_eq, ite_self]
  simp only [buildConeMasks, if_true, extractFaultCone, hdriver, true_and]

variable {obs : List CompiledNetIndex}

include h hf in
theorem mem_observed : o ∈ (buildConeMasks g.cg f.netIndex obs true).observed ↔
      o ∈ outcone g.cg f.netIndex ∧ o ∈ obs := by
  simp only [buildConeMasks, if_true, extractFaultCone, List.mem_filter, decide_eq_true_eq]
  refine and_congr_right fun ho => and_iff_left (lt_of_isCone hf (isCone_outcone h hf) ho)

/-- The net of a listed input. -/
def OfPi (pis : List AtpgPiInfo) (i : CompiledNetIndex) : Prop := ∃ pi ∈ pis, pi.compiled = i

include h hf in
/-- **The masks of the cone** decide the fault. -/
theorem covers_cone (pis : List AtpgPiInfo) :
    Covers g.cg.gateAssigns f.netIndex (OfPi pis) obs (buildConeMasks g.cg f.netIndex obs true)
      {i | i ∈ support g.cg g.cg.driverIndex (outcone g.cg f.netIndex)} := by
  obtain ⟨hO, hS, hred⟩ := coneMasks_eq g f.netIndex obs
  obtain ⟨hsub, hback⟩ := support_spec h hf
  have hcone := isCone_outcone h hf
  refine ⟨?_, hback, fun i hi => ?_, fun o => ?_, fun o ho => hsub o ((mem_observed h hf).1 ho).1,
    fun i _ hi hout hne => ?_, hred⟩
  · rw [hO]
    simpa using hcone.toIsUpper
  · rw [hS]
    exact decide_eq_true hi
  · rw [mem_observed h hf, hO, decide_eq_true_eq, and_comm]
  · -- the cone is driven, so no net of it but the faulty one is left
    rw [hO] at hi
    exact absurd (hcone.driven i (of_decide_eq_true hi) hne) hout

variable {masks : ConeMasks} {S : Set CompiledNetIndex}
  (hcov : Covers g.cg.gateAssigns f.netIndex (OfPi pis) g.cg.observable masks S)

include h hpi hpis hcov in
/-- **Models give tests.** -/
theorem StuckAtModel.givesTest {a : ℕ → Bool} (ha : StuckAtModel g.cg pis f blocked masks a) :
    GivesTest g.cg pis f blocked a := by
  have heqs : ∀ e ∈ g.cg.gateAssigns,
      EqHolds masks.inOutcone f.netIndex (masks.inSupport e.out) a e := by
    intro e he
    obtain ⟨n, hn, hsrc, rfl⟩ := CompiledSimGraph.mem_gateAssigns.1 he
    exact eqHolds_gateAssign.2 (ha.nodes n hn hsrc)
  have htied : ∀ i, OfPi pis i → i ≠ f.netIndex → masks.inOutcone i = true →
      goodOf a i = faultyOf a i := by
    rintro _ ⟨pi, hmem, rfl⟩
    exact ha.tied pi hmem
  obtain ⟨v, w, hpair, hdiff, -, hbase⟩ := hcov.exists_pair h.rankedBy h.nodup heqs ha.stuck htied
    ((eval_diffLits_iff ha.diffs).1 ha.some)
  have hin := eq_goodOf_of_base h hpi hpis hbase
  exact ⟨v, w, ⟨hpair, by rw [List.map_congr_left hin]; exact ha.unblocked, hdiff⟩, hin⟩

include h hpi hpis hf hcov in
/-- **Tests give models.** -/
theorem IsTest.stuckAtModel {v w : Values} (ht : IsTest g.cg pis f blocked g.cg.observable v w) :
    ∃ a, StuckAtModel g.cg pis f blocked masks a := by
  have hlt : ∀ pi ∈ pis, pi.compiled < g.cg.netCount := fun pi hmem =>
    lt_of_mem_piNets hpi (hpis pi hmem)
  obtain ⟨hagrees, hdiffs, hsome⟩ := (agrees_dual g.cg.netCount v w).withDiffs le_rfl
    fun o ho => lt_of_mem_observable ((hcov.observed o).1 ho).1
  refine ⟨_, fun n hn hsrc => nodeHolds_of_testPair h hcov.upper ht.pair hagrees hn hsrc _,
    fun pi hmem hne _ => ?_, ?_, ?_, hdiffs,
    hsome [] _ rfl (hcov.exists_observed h.rankedBy ht.pair ht.differs)⟩
  · rw [(hagrees _ (hlt pi hmem)).1, (hagrees _ (hlt pi hmem)).2]
    exact (ht.pair.base _ (mt CompiledSimGraph.mem_outs_gateAssigns.1
      (h.single.not_gateDriven hpi (hpis pi hmem))) hne).symm
  · rw [List.map_congr_left fun pi hmem => (hagrees _ (hlt pi hmem)).1]
    exact ht.unblocked
  · rw [(hagrees _ hf).2, ht.pair.stuck]

include h hpi hpis hf in
/-- **The solver answers right** under masks that decide the fault, for well-formed
blocked patterns. -/
theorem exists_solveStuckAtFault (solver : SatSolver ℕ) (options : SatSolveOptions)
    (hcov : Covers g.cg.gateAssigns f.netIndex (OfPi pis) g.cg.observable
      (buildConeMasks g.cg f.netIndex g.cg.observable options.coneRestrict) S)
    (hok : KeysOk pis.length options.blockedPatterns) :
    ∃ r, solveStuckAtFault solver g.cg pis f options = .ok r ∧
      Answers g.cg pis f options.blockedPatterns r := by
  rw [solveStuckAtFault]
  split
  · rename_i hred
    refine ⟨_, rfl, answers_unsat fun v w ht => ?_⟩
    rw [hcov.decided, List.isEmpty_iff] at hred
    obtain ⟨o, ho, -⟩ := hcov.exists_observed h.rankedBy ht.pair ht.differs
    rw [hred] at ho
    exact List.not_mem_nil ho
  · rename_i hred
    rw [hcov.decided, List.isEmpty_iff] at hred
    obtain ⟨cnf, hcnf, hsat⟩ := exists_stuckAtCnf h.comb pis f hok hred
    refine ⟨_, by rw [hcnf]; rfl, answers_solveAndEmit solver (fun a ha => ?_) fun v w ht => ?_⟩
    · exact ((hsat a).1 ha).givesTest h hpi hpis hcov
    · obtain ⟨a, ha⟩ := ht.stuckAtModel h hpi hpis hf hcov
      exact ⟨a, (hsat a).2 ha⟩

include h hpi hpis hf in
/-- **The cone-restricted solver answers right.** -/
theorem exists_solveStuckAtFault_cone (solver : SatSolver ℕ) (options : SatSolveOptions)
    (hcone : options.coneRestrict = true) (hok : KeysOk pis.length options.blockedPatterns) :
    ∃ r, solveStuckAtFault solver g.cg pis f options = .ok r ∧
      Answers g.cg pis f options.blockedPatterns r :=
  exists_solveStuckAtFault h hpi hpis hf solver options (hcone ▸ covers_cone h hf pis) hok

end ConeSolver

end FaultFlow.Atpg
