/-
# The incremental solver gives the verdict of the cone

What the incremental solver has encoded (`Encodes`) says of an assignment that the
nets marked so far satisfy their equations and that the variables of the watched
nets are their differences.  The marked nets are closed under fan-in, so the
encoding has a model with a difference on some watched nets exactly when there is
such a test.  Growing the encoding by groups, with or without the cut in front,
therefore gives right answers (`exists_solveStuckAtFaultIncremental`).
-/

import FaultFlow.Atpg.Incremental
import FaultFlow.Atpg.Replay

namespace FaultFlow.Atpg

open Lib
open Std (TreeMap)

theorem flatten_groups {α : Type*} (sizes : List ℕ) (obs : List α) :
    (groups sizes obs).flatten = obs := by
  induction sizes generalizing obs with
  | nil => cases obs <;> simp [groups]
  | cons size sizes ih =>
    cases obs with
    | nil => rfl
    | cons o obs =>
      rw [groups, List.flatten_cons, ih, List.take_append_drop]
      simp

variable {g : CachedGraph} (h : g.Equational) {f : CompactFault}

section Walk

theorem perm_queue (t : CompiledNetIndex) (work : List CompiledNetIndex) :
    (work ++ [t]).Perm (t :: work) := List.perm_append_singleton t work

include h in
/-- The queue finds the same cone as the stack. -/
theorem bfsOutcone_spec (hf : f.netIndex < g.cg.netCount) :
    (bfsOutcone g.cg f.netIndex).Nodup ∧ [f.netIndex] <+: bfsOutcone g.cg f.netIndex ∧
      Assign.IsCone g.cg.gateAssigns f.netIndex {i | i ∈ bfsOutcone g.cg f.netIndex} := by
  obtain ⟨hnd, hfirst, hmem⟩ := forward_spec h hf perm_queue
  exact ⟨hnd, hfirst, Assign.isCone_reach hmem⟩

include h in
theorem mem_backInputs {net i : CompiledNetIndex} :
    i ∈ backInputs g.cg net ↔ ∃ n ∈ g.cg.nodes, n.out = net ∧ i ∈ n.inputNets := by
  rw [← mem_driverInputs h.single, backInputs, driverInputs]
  cases hd : driverNode g.cg g.cg.driverIndex net with
  | none => rfl
  | some n =>
    have hn := ((driverNode_eq_some_iff h.single).1 hd).1
    show i ∈ (if n.type = .INPUT then [] else n.inputNets) ↔ i ∈ n.inputNets
    split
    · rename_i hin
      rw [g.inputNets_eq_nil h.comb hn (.inl hin)]
    · rfl

theorem length_backInputs_le (cg : CompiledSimGraph) (net : CompiledNetIndex) :
    (backInputs cg net).length ≤ 6 := by
  unfold backInputs
  split
  · simp
  · split
    · simp
    · exact length_inputNets_le _

end Walk

/-! ## The clauses of a cone -/

section Clauses

variable (hpi : g.cg.InputsDriven) {out : List CompiledNetIndex}

/-- The clauses of the driver of a net. -/
def netClauses (cg : CompiledSimGraph) (out : List CompiledNetIndex)
    (faultNet net : CompiledNetIndex) : Cnf :=
  match driverNode cg cg.driverIndex net with
  | none => []
  | some n =>
    if n.type = .INPUT then []
    else gateClausesWhere true n.type (n.inputNets.map freeLit) (freeLit n.out) ++
      gateClausesWhere (decide (n.out ∈ out) && n.out != faultNet) n.type
        (n.inputNets.map (faultyInputLit fun i => i ∈ out)) (faultyLit n.out)

/-- The driver of a net satisfies its equations. -/
def NetHolds (cg : CompiledSimGraph) (out : List CompiledNetIndex) (faultNet : CompiledNetIndex)
    (a : ℕ → Bool) (net : CompiledNetIndex) : Prop :=
  ∀ n ∈ cg.nodes, ¬ n.IsSource → n.out = net → NodeHolds (fun i => i ∈ out) faultNet true a n

include h hpi in
theorem encodeNet_eq_ok (hout : Assign.IsCone g.cg.gateAssigns f.netIndex {i | i ∈ out})
    (net : CompiledNetIndex) (cnf : Cnf) :
    encodeNet g.cg out f.netIndex net cnf = .ok (cnf ++ netClauses g.cg out f.netIndex net) := by
  unfold encodeNet netClauses
  cases hd : driverNode g.cg g.cg.driverIndex net with
  | none => simp [pure, Except.pure]
  | some n =>
    obtain ⟨hn, rfl⟩ := (driverNode_eq_some_iff h.single).1 hd
    simp only
    split
    · rename_i hin
      -- an input in the cone is the faulty net, so no copies are tied
      have hno : ¬ (n.out ∈ out ∧ n.out ≠ f.netIndex) := fun ⟨hmem, hne⟩ =>
        hne (eq_of_mem_cone h hpi hout (g.mem_piNets_of_input hn hin) hmem)
      simp [hno, pure, Except.pure]
    · have hlen := length_inputNets_le n
      rw [addGateWhere_eq_ok (h.comb n hn) hlen]
      show addGateWhere _ _ _ _ _ = _
      rw [addGateWhere_eq_ok (h.comb n hn) hlen, List.append_assoc]

include h in
theorem satisfies_netClauses {a : ℕ → Bool} {net : CompiledNetIndex} :
    Satisfies a (netClauses g.cg out f.netIndex net) ↔ NetHolds g.cg out f.netIndex a net := by
  unfold netClauses NetHolds
  cases hd : driverNode g.cg g.cg.driverIndex net with
  | none =>
    have hno : ∀ n ∈ g.cg.nodes, n.out ≠ net := fun n hn hout => by
      rw [(driverNode_eq_some_iff h.single).2 ⟨hn, hout⟩] at hd
      cases hd
    exact ⟨fun _ n hn _ hout => absurd hout (hno n hn), fun _ => satisfies_nil a⟩
  | some n =>
    obtain ⟨hn, rfl⟩ := (driverNode_eq_some_iff h.single).1 hd
    have hself : ∀ m ∈ g.cg.nodes, m.out = n.out → m = n := fun m hm hout =>
      h.single.eq hm hn hout
    simp only
    split
    · rename_i hin
      refine ⟨fun _ m hm hsrc hout => ?_, fun _ => satisfies_nil a⟩
      obtain rfl := hself m hm hout
      exact absurd (.inl hin) hsrc
    · rename_i hin
      rw [satisfies_nodeClauses (m := fun i => decide (i ∈ out))]
      constructor
      · intro hnode m hm _ hout
        rwa [hself m hm hout]
      · exact fun hall => hall n hn (not_or.2 ⟨hin, h.comb n hn⟩) rfl

end Clauses

variable {out : List CompiledNetIndex} {pis : List AtpgPiInfo} {blocked : List (List Char)}
  {lits : List (Std.Sat.Literal ℕ)}

omit h in
/-- A cone as a mask. -/
theorem isUpper_decide (hout : Assign.IsCone g.cg.gateAssigns f.netIndex {i | i ∈ out}) :
    Assign.IsUpper g.cg.gateAssigns f.netIndex {i | decide (i ∈ out) = true} := by
  simpa using hout.toIsUpper

/-! ## What is encoded -/

/-- **What the incremental solver has encoded**: the fault and the blocked patterns,
the equations of the marked nets, and the differences on the watched nets `D`. -/
structure Encodes (g : CachedGraph) (pis : List AtpgPiInfo) (f : CompactFault)
    (blocked : List (List Char)) (out D : List CompiledNetIndex) (st : Encoder) : Prop where
  nodup : st.enc.Nodup
  inside : ∀ i ∈ st.enc, i ∈ List.range g.cg.netCount
  closed : ∀ i ∈ st.enc, ∀ j ∈ backInputs g.cg i, j ∈ st.enc
  watched : ∀ o ∈ D, o ∈ st.enc
  next : st.next = nextVar g.cg.netCount + D.length
  sat : ∀ a, Satisfies a st.cnf ↔ faultyOf a f.netIndex = f.value ∧
    keyOf (pis.map fun pi => goodOf a pi.compiled) ∉ blocked ∧
    (∀ i ∈ st.enc, NetHolds g.cg out f.netIndex a i) ∧
    Satisfies a (diffClauses (nextVar g.cg.netCount) D)

section Encodes

variable (hpi : g.cg.InputsDriven) {D : List CompiledNetIndex} {st : Encoder}

include h hpi in
/-- One more net is watched. -/
theorem Encodes.watch (hst : Encodes g pis f blocked out D st)
    (hout : Assign.IsCone g.cg.gateAssigns f.netIndex {i | i ∈ out}) {net : CompiledNetIndex}
    (hnet : net < g.cg.netCount) :
    ∃ st', watch g.cg out f.netIndex st net = .ok st' ∧
      Encodes g pis f blocked out (D ++ [net]) st' := by
  have hback : ∀ x ∈ List.range g.cg.netCount, ∀ y ∈ backInputs g.cg x,
      y ∈ List.range g.cg.netCount := by
    intro x _ y hy
    obtain ⟨n, hn, -, hy⟩ := (mem_backInputs h).1 hy
    exact List.mem_range.2 (g.reads_lt_netCount hn hy)
  have hfuel : (6 + 1) * ((List.range g.cg.netCount).length - st.enc.length) + [net].length ≤
      7 * g.cg.netCount + 1 := by
    rw [List.length_range, List.length_singleton]
    omega
  obtain ⟨hnd, hin, hroot, hclosed⟩ := visit_closed hback (length_backInputs_le g.cg) hst.nodup
    hst.inside (by simpa using hnet) (fun x hx y hy => .inl (hst.closed x hx y hy)) hfuel
  let marked := visit (backInputs g.cg) (7 * g.cg.netCount + 1) st.enc [net]
  have hfold : marked.foldlM (fun cnf i => encodeNet g.cg out f.netIndex i cnf) st.cnf =
      .ok (st.cnf ++ marked.flatMap (netClauses g.cg out f.netIndex)) :=
    foldlM_append_ok (fun i _ acc => encodeNet_eq_ok h hpi hout i acc) st.cnf
  have hcone : encodeCone g.cg out f.netIndex st net = .ok
      { st with cnf := st.cnf ++ marked.flatMap (netClauses g.cg out f.netIndex)
                enc := st.enc ++ marked } := by
    show (do let cnf ← marked.foldlM _ st.cnf; return _) = _
    rw [hfold]
    rfl
  refine ⟨_, by rw [Atpg.watch, hcone]; rfl, ⟨hnd, hin, hclosed, fun o ho => ?_, ?_, fun a => ?_⟩⟩
  · rcases List.mem_append.1 ho with ho | ho
    · exact List.mem_append_left _ (hst.watched o ho)
    · exact hroot o ho
  · show st.next + 1 = _
    rw [hst.next, List.length_append, List.length_singleton]
    omega
  · have hxor : addXorDef (freeLit net) (faultyLit net) (pos st.next) =
        diffClauses (nextVar g.cg.netCount + D.length) [net] := by
      rw [hst.next]
      simp [diffClauses]
    show Satisfies a (st.cnf ++ marked.flatMap (netClauses g.cg out f.netIndex) ++
      addXorDef (freeLit net) (faultyLit net) (pos st.next)) ↔ _
    rw [satisfies_append, satisfies_append, hst.sat, satisfies_flatMap, diffClauses_append,
      satisfies_append, hxor]
    simp only [satisfies_netClauses h, List.mem_append, or_imp, forall_and]
    tauto

include h hpi in
/-- All nets of a list are watched. -/
theorem Encodes.watchAll (hst : Encodes g pis f blocked out D st)
    (hout : Assign.IsCone g.cg.gateAssigns f.netIndex {i | i ∈ out}) (nets : List CompiledNetIndex)
    (hnets : ∀ o ∈ nets, o < g.cg.netCount) :
    ∃ st', nets.foldlM (Atpg.watch g.cg out f.netIndex) st = .ok st' ∧
      Encodes g pis f blocked out (D ++ nets) st' := by
  induction nets generalizing D st with
  | nil => exact ⟨st, rfl, by simpa using hst⟩
  | cons net nets ih =>
    obtain ⟨st₁, hwatch, hst₁⟩ := hst.watch h hpi hout (hnets net List.mem_cons_self)
    obtain ⟨st₂, hrest, hst₂⟩ := ih hst₁ fun o ho => hnets o (List.mem_cons_of_mem _ ho)
    refine ⟨st₂, ?_, by simpa using hst₂⟩
    rw [List.foldlM_cons, hwatch]
    exact hrest

include h in
/-- The marked nets are closed under fan-in. -/
theorem Encodes.backClosed (hst : Encodes g pis f blocked out D st) :
    Assign.BackClosed g.cg.gateAssigns {i | i ∈ st.enc} := by
  intro b hb hmem i hi
  obtain ⟨n, hn, -, rfl⟩ := CompiledSimGraph.mem_gateAssigns.1 hb
  exact hst.closed n.out hmem i ((mem_backInputs h).2 ⟨n, hn, rfl, hi⟩)

variable {C E : List CompiledNetIndex}
  (hout : Assign.IsCone g.cg.gateAssigns f.netIndex {i | i ∈ out})
  (hst : Encodes g pis f blocked out (C ++ E) st)

include hst in
/-- The clause of one solve asks for a difference on the nets of `E`. -/
theorem Encodes.clause_eq :
    (List.range' (nextVar g.cg.netCount + C.length)
      (st.next - (nextVar g.cg.netCount + C.length))).map pos =
      diffLits (nextVar g.cg.netCount + C.length) E := by
  have hlen : st.next - (nextVar g.cg.netCount + C.length) = E.length := by
    rw [hst.next, List.length_append]
    omega
  rw [hlen, diffLits]

include h hpi hout hst in
/-- A model of the encoding with a difference on `E` gives a test. -/
theorem Encodes.exists_isTest (hpis : ∀ pi ∈ pis, pi.compiled ∈ g.cg.piNets)
    (hE : ∀ o ∈ E, o ∈ out) {a : ℕ → Bool} (ha : Satisfies a st.cnf)
    (hsome : Std.Sat.CNF.Clause.eval a (diffLits (nextVar g.cg.netCount + C.length) E) = true) :
    ∃ v w, IsTest g.cg pis f blocked E v w ∧
      ∀ pi ∈ pis, v pi.compiled = goodOf a pi.compiled := by
  obtain ⟨hstuck, hkey, hnets, hdiff⟩ := (hst.sat a).1 ha
  rw [diffClauses_append, satisfies_append] at hdiff
  refine Atpg.exists_isTest h hpi hpis (isUpper_decide hout) (hst.backClosed h)
    (fun o ho => ⟨hst.watched o (List.mem_append_right _ ho), decide_eq_true (hE o ho)⟩)
    (fun n hn hsrc hmem => hnets n.out hmem n hn hsrc rfl) (fun i _ hi hgate hne => ?_) hstuck hkey
    ((eval_diffLits_iff hdiff.2).1 hsome)
  exact absurd (CompiledSimGraph.mem_outs_gateAssigns.1
    (hout.driven i (of_decide_eq_true hi) hne)) hgate

include h hpi hout hst in
/-- A test with a difference on `E` gives a model. -/
theorem Encodes.exists_model (hf : f.netIndex < g.cg.netCount)
    (hpis : ∀ pi ∈ pis, pi.compiled ∈ g.cg.piNets) {v w : Values}
    (ht : IsTest g.cg pis f blocked E v w) :
    ∃ a, Satisfies a st.cnf ∧
      Std.Sat.CNF.Clause.eval a (diffLits (nextVar g.cg.netCount + C.length) E) = true := by
  have hlt : ∀ o ∈ C ++ E, o < g.cg.netCount := fun o ho =>
    List.mem_range.1 (hst.inside o (hst.watched o ho))
  obtain ⟨hagrees, hdiff, hsome⟩ := (agrees_dual g.cg.netCount v w).withDiffs le_rfl hlt
  refine ⟨_, (hst.sat _).2 ⟨?_, ?_, fun i hi n hn hsrc _ => ?_, hdiff⟩, hsome C E rfl ht.differs⟩
  · rw [(hagrees _ hf).2, ht.pair.stuck]
  · rw [List.map_congr_left fun pi hmem => (hagrees _ (lt_of_mem_piNets hpi (hpis pi hmem))).1]
    exact ht.unblocked
  · exact nodeHolds_of_testPair h (isUpper_decide hout) ht.pair hagrees hn hsrc true

include h hpi hout hst in
/-- **One solve finds a test with a difference on `E`, if there is one.** -/
theorem Encodes.solveWatched_spec (solver : SatSolver ℕ) (hf : f.netIndex < g.cg.netCount)
    (hpis : ∀ pi ∈ pis, pi.compiled ∈ g.cg.piNets) (hE : ∀ o ∈ E, o ∈ out) :
    (∀ a, solveWatched solver st (nextVar g.cg.netCount + C.length) = some a →
      ∃ v w, IsTest g.cg pis f blocked E v w ∧
        ∀ pi ∈ pis, v pi.compiled = goodOf a pi.compiled) ∧
    (solveWatched solver st (nextVar g.cg.netCount + C.length) = none →
      ∀ v w, ¬ IsTest g.cg pis f blocked E v w) := by
  unfold solveWatched
  rw [hst.clause_eq]
  constructor
  · intro a ha
    have hsat := solver.sound _ a ha
    rw [satisfies_append, satisfies_cons] at hsat
    exact hst.exists_isTest h hpi hout hpis hE hsat.1 hsat.2.1
  · intro hnone v w ht
    obtain ⟨a, ha, hsome⟩ := hst.exists_model h hpi hout hf hpis ht
    refine solver.complete _ hnone a ?_
    rw [satisfies_append, satisfies_cons]
    exact ⟨ha, hsome, satisfies_nil a⟩

include h hpi hout hst in
/-- **The loop over the groups answers right**, once the groups make up all
observables that the fault reaches. -/
theorem Encodes.exists_solveGroups (solver : SatSolver ℕ) (hf : f.netIndex < g.cg.netCount)
    (hpis : ∀ pi ∈ pis, pi.compiled ∈ g.cg.piNets) (gs : List (List CompiledNetIndex))
    (hnone : ∀ v w, ¬ IsTest g.cg pis f blocked E v w)
    (hin : ∀ o ∈ E ++ gs.flatten, o ∈ out ∧ o ∈ g.cg.observable)
    (hall : ∀ v w, IsTest g.cg pis f blocked g.cg.observable v w →
      IsTest g.cg pis f blocked (E ++ gs.flatten) v w) :
    ∃ r, solveGroups solver g.cg pis out f.netIndex (nextVar g.cg.netCount + C.length) st gs =
      .ok r ∧ Answers g.cg pis f blocked r := by
  induction gs generalizing E st with
  | nil =>
    refine ⟨_, rfl, answers_unsat fun v w ht => hnone v w ?_⟩
    simpa using hall v w ht
  | cons group gs ih =>
    have hgroup : ∀ o ∈ group, o ∈ out := fun o ho => (hin o (by simp [ho])).1
    obtain ⟨st', hwatch, hst'⟩ := hst.watchAll h hpi hout group fun o ho =>
      lt_of_isCone hf hout (hgroup o ho)
    rw [List.append_assoc] at hst'
    have hE : ∀ o ∈ E ++ group, o ∈ out ∧ o ∈ g.cg.observable := fun o ho => by
      refine hin o ?_
      rw [List.flatten_cons, ← List.append_assoc]
      exact List.mem_append_left _ ho
    obtain ⟨hsome, hno⟩ := hst'.solveWatched_spec h hpi hout solver hf hpis fun o ho => (hE o ho).1
    rw [solveGroups, hwatch]
    simp only [bind, Except.bind]
    split
    · rename_i a ha
      obtain ⟨v, w, ht, hinputs⟩ := hsome a ha
      obtain ⟨o, ho, hne⟩ := ht.differs
      refine ⟨_, rfl, GivesTest.answers ⟨v, w, ⟨ht.pair, ht.unblocked, o, (hE o ho).2, hne⟩, hinputs⟩⟩
    · rename_i hsolve
      refine ih hst' (hno hsolve) ?_ ?_
      · simpa only [List.flatten_cons, List.append_assoc] using hin
      · simpa only [List.flatten_cons, List.append_assoc] using hall

end Encodes

/-! ## The cut -/

include h in
/-- **A test shows on the cut**: its difference stays in the region, and is observed
there, or leaves it through a net of the cut. -/
theorem IsTest.cut {observable region : List CompiledNetIndex} {v w : Values}
    (ht : IsTest g.cg pis f blocked g.cg.observable v w)
    (hout : Assign.IsCone g.cg.gateAssigns f.netIndex {i | i ∈ out})
    (hobs : ∀ o ∈ g.cg.observable, o ∈ out → o ∈ observable) (hf : f.netIndex ∈ region) :
    IsTest g.cg pis f blocked (cutOf g.cg observable region) v w := by
  obtain ⟨o, ho, hoout, hne⟩ := ht.mem_cone h hout
  refine ⟨ht.pair, ht.unblocked, ?_⟩
  by_cases hor : o ∈ region
  · refine ⟨o, List.mem_filter.2 ⟨hor, ?_⟩, hne⟩
    exact decide_eq_true (.inl (hobs o ho hoout))
  · obtain ⟨r, hr, hdiff, t, htr, hfans⟩ := ht.pair.exists_cut h.rankedBy
      (R := {i | i ∈ region}) hf (Ne.symm hne) hor
    refine ⟨r, List.mem_filter.2 ⟨hr, decide_eq_true (.inr ⟨t, ?_, htr⟩)⟩, Ne.symm hdiff⟩
    exact g.mem_fanoutRow.2 (h.fans_iff.1 hfans)

section Main

variable (hpi : g.cg.InputsDriven) (hpis : ∀ pi ∈ pis, pi.compiled ∈ g.cg.piNets)
  (hf : f.netIndex < g.cg.netCount)

include h hpi hpis hf in
/-- **FUP is sound**: what it proves untestable has no test, and it leaves an
encoding to go on with. -/
theorem Encodes.exists_fastUntestable {st : Encoder} {observable : List CompiledNetIndex}
    (hst : Encodes g pis f blocked (bfsOutcone g.cg f.netIndex) [] st) (solver : SatSolver ℕ)
    (hobs : ∀ o ∈ g.cg.observable, o ∈ bfsOutcone g.cg f.netIndex → o ∈ observable) (budget : ℕ) :
    ∃ redundant st' C, fastUntestable solver g.cg observable (bfsOutcone g.cg f.netIndex)
        f.netIndex budget st = .ok (redundant, st') ∧
      Encodes g pis f blocked (bfsOutcone g.cg f.netIndex) C st' ∧
      (redundant = true → ∀ v w, ¬ IsTest g.cg pis f blocked g.cg.observable v w) := by
  obtain ⟨-, ⟨tail, hfirst⟩, hout⟩ := bfsOutcone_spec h hf
  unfold fastUntestable
  split
  · rename_i hbudget
    let cut := cutOf g.cg observable ((bfsOutcone g.cg f.netIndex).take budget)
    have hcut : ∀ o ∈ cut, o ∈ bfsOutcone g.cg f.netIndex := fun o ho =>
      List.mem_of_mem_take (List.mem_filter.1 ho).1
    obtain ⟨st', hwatch, hst'⟩ := hst.watchAll h hpi hout cut fun o ho =>
      lt_of_isCone hf hout (hcut o ho)
    refine ⟨!cut.isEmpty && (solveWatched solver st' st.next).isNone, st', [] ++ cut, ?_, hst',
      fun hred v w ht => ?_⟩
    · show (do let st' ← cut.foldlM _ st; return _) = _
      rw [hwatch]
      rfl
    obtain ⟨-, hno⟩ := hst'.solveWatched_spec h hpi hout solver hf hpis hcut
    have hnone : solveWatched solver st' (nextVar g.cg.netCount + ([] : List ℕ).length) = none := by
      have hnext : st.next = nextVar g.cg.netCount + ([] : List ℕ).length := hst.next
      rw [Bool.and_eq_true, Option.isNone_iff_eq_none, hnext] at hred
      exact hred.2
    refine hno hnone v w (ht.cut h hout hobs ?_)
    obtain ⟨k, hk⟩ : ∃ k, budget = k + 1 := ⟨budget - 1, by omega⟩
    rw [← hfirst, hk]
    exact List.mem_cons_self
  · exact ⟨false, st, [], rfl, hst, nofun⟩

include h hpi hpis hf in
/-- **The incremental solver answers right**, for well-formed blocked patterns. -/
theorem exists_solveStuckAtFaultIncremental (solver : SatSolver ℕ) (options : SatSolveOptions)
    (hok : KeysOk pis.length options.blockedPatterns) :
    ∃ r, solveStuckAtFaultIncremental solver g.cg pis f options = .ok r ∧
      Answers g.cg pis f options.blockedPatterns r := by
  obtain ⟨-, -, hout⟩ := bfsOutcone_spec h hf
  let observable := g.cg.observable.filter fun obs => obs < g.cg.netCount
  let reached := (bfsOutcone g.cg f.netIndex).filter fun net => net ∈ observable
  have hobs : ∀ o ∈ g.cg.observable, o ∈ bfsOutcone g.cg f.netIndex → o ∈ observable :=
    fun o ho hmem => List.mem_filter.2 ⟨ho, decide_eq_true (lt_of_isCone hf hout hmem)⟩
  have hreached : ∀ o, o ∈ reached ↔ o ∈ bfsOutcone g.cg f.netIndex ∧ o ∈ g.cg.observable := by
    intro o
    rw [List.mem_filter, decide_eq_true_eq]
    exact and_congr_right fun hmem => ⟨fun ho => (List.mem_filter.1 ho).1, fun ho => hobs o ho hmem⟩
  have hall : ∀ v w, IsTest g.cg pis f options.blockedPatterns g.cg.observable v w →
      IsTest g.cg pis f options.blockedPatterns reached v w := fun v w ht => by
    obtain ⟨o, ho, hmem, hne⟩ := ht.mem_cone h hout
    exact ⟨ht.pair, ht.unblocked, o, (hreached o).2 ⟨hmem, ho⟩, hne⟩
  unfold solveStuckAtFaultIncremental
  show ∃ r, (if reached.isEmpty = true then _ else _) = _ ∧ _
  split
  · rename_i hempty
    refine ⟨_, rfl, answers_unsat fun v w ht => ?_⟩
    obtain ⟨o, ho, -⟩ := (hall v w ht).differs
    rw [List.isEmpty_iff.1 hempty] at ho
    exact List.not_mem_nil ho
  · have hlits : KeysOk (pis.map fun pi => freeLit pi.compiled).length options.blockedPatterns := by
      simpa using hok
    obtain ⟨block, hblock, hblocksat⟩ := exists_blockPatterns "PIs" hlits (addUnit (faultLit f))
    have hst : Encodes g pis f options.blockedPatterns (bfsOutcone g.cg f.netIndex) []
        { cnf := addUnit (faultLit f) ++ block, next := nextVar g.cg.netCount } := by
      refine ⟨List.nodup_nil, by simp, by simp, by simp, rfl, fun a => ?_⟩
      rw [satisfies_append, satisfies_addUnit, litValue_faultLit, hblocksat, List.map_map]
      simp [diffClauses, faultyOf, goodOf, Function.comp_def]
    obtain ⟨redundant, st, C, hfup, hstC, hred⟩ := hst.exists_fastUntestable h hpi hpis hf solver hobs
      options.fupRegionBudget.toNat
    rw [hblock]
    simp only [bind, Except.bind]
    rw [hfup]
    simp only
    split
    · rename_i hr
      exact ⟨_, rfl, answers_unsat (hred hr)⟩
    · rw [hstC.next]
      have hstart : Encodes g pis f options.blockedPatterns (bfsOutcone g.cg f.netIndex) (C ++ []) st := by
        rwa [List.append_nil]
      refine hstart.exists_solveGroups h hpi hout solver hf hpis _ ?_ ?_ ?_
      · rintro v w ⟨-, -, o, ho, -⟩
        exact List.not_mem_nil ho
      · rw [List.nil_append, flatten_groups]
        exact fun o ho => (hreached o).1 ho
      · rw [List.nil_append, flatten_groups]
        exact hall

end Main

/-! ## The verdicts -/

/-- A malformed blocked pattern is an error, whatever the clauses before it. -/
theorem blockPattern_error (what : String) {p : List Char}
    (h : ¬ (p.length = lits.length ∧ ∀ c ∈ p, c = '0' ∨ c = '1')) :
    ∃ e, ∀ cnf, blockPattern what lits cnf p = .error e := by
  unfold blockPattern
  by_cases hlen : p.length = lits.length
  · have hall : ¬ (p.all fun c => c == '0' || c == '1') = true := by
      intro hall
      refine h ⟨hlen, fun c hc => ?_⟩
      simpa using List.all_eq_true.1 hall c hc
    refine ⟨.runtimeError "invalid blocked pattern key", fun cnf => ?_⟩
    rw [if_neg (not_not.2 hlen), assignmentFromPattern, if_neg hall]
    rfl
  · exact ⟨_, fun cnf => if_pos hlen⟩

theorem blockPatterns_error (what : String) (h : ¬ KeysOk lits.length blocked) :
    ∃ e, ∀ cnf, blocked.foldlM (blockPattern what lits) cnf = .error e := by
  induction blocked with
  | nil => exact absurd (fun p hp => absurd hp List.not_mem_nil) h
  | cons p blocked ih =>
    by_cases hp : p.length = lits.length ∧ ∀ c ∈ p, c = '0' ∨ c = '1'
    · obtain ⟨e, he⟩ := ih fun hrest => h fun q hq => by
        rcases List.mem_cons.1 hq with rfl | hq
        · exact hp
        · exact hrest q hq
      refine ⟨e, fun cnf => ?_⟩
      rw [List.foldlM_cons, blockPattern_eq_ok what hp.1 hp.2]
      exact he _
    · obtain ⟨e, he⟩ := blockPattern_error what hp
      refine ⟨e, fun cnf => ?_⟩
      rw [List.foldlM_cons, he]
      rfl

include h in
/-- The two searches reach an observable together. -/
theorem reached_isEmpty_iff (hf : f.netIndex < g.cg.netCount) :
    ((bfsOutcone g.cg f.netIndex).filter fun net =>
      net ∈ g.cg.observable.filter fun obs => obs < g.cg.netCount).isEmpty = true ↔
      (buildConeMasks g.cg f.netIndex g.cg.observable true).redundant = true := by
  have hmem : ∀ i, i ∈ bfsOutcone g.cg f.netIndex ↔ i ∈ outcone g.cg f.netIndex := fun i => by
    rw [bfsOutcone, outcone, (forward_spec h hf perm_queue).2.2, (forward_spec h hf perm_cons).2.2]
  rw [(coneMasks_eq g f.netIndex _).2.2, List.isEmpty_iff, List.isEmpty_iff,
    List.eq_nil_iff_forall_not_mem, List.eq_nil_iff_forall_not_mem]
  refine forall_congr' fun o => not_congr ?_
  simp only [buildConeMasks, if_true, extractFaultCone, List.mem_filter, hmem]

include h in
/-- On malformed blocked patterns both solvers find the redundant faults only, and
fail alike on the others. -/
theorem solve_malformed (solver : SatSolver ℕ) (hf : f.netIndex < g.cg.netCount)
    (options : SatSolveOptions) (hbad : ¬ KeysOk pis.length options.blockedPatterns) :
    ∃ x : Except FlowError (SolveOutcome (TreeMap String Bool)),
      solveStuckAtFaultIncremental solver g.cg pis f options = x ∧
      solveStuckAtFault solver g.cg pis f { options with coneRestrict := true } = x ∧
      (∀ r, x = .ok r → ∀ v w, ¬ IsTest g.cg pis f options.blockedPatterns g.cg.observable v w) := by
  have hlits : ¬ KeysOk (pis.map fun pi => freeLit pi.compiled).length options.blockedPatterns := by
    simpa using hbad
  obtain ⟨e, he⟩ := blockPatterns_error "PIs" hlits
  by_cases hred : (buildConeMasks g.cg f.netIndex g.cg.observable true).redundant = true
  · refine ⟨.ok { result := .UNSAT, out := none }, ?_, ?_, fun r _ v w ht => ?_⟩
    · exact if_pos ((reached_isEmpty_iff h hf).2 hred)
    · exact if_pos hred
    · rw [(coneMasks_eq g f.netIndex _).2.2, List.isEmpty_iff] at hred
      obtain ⟨o, ho, -⟩ := (covers_cone h hf pis).exists_observed h.rankedBy ht.pair ht.differs
      rw [hred] at ho
      exact List.not_mem_nil ho
  · refine ⟨.error e, ?_, ?_, nofun⟩
    · refine (if_neg (mt (reached_isEmpty_iff h hf).1 hred)).trans ?_
      rw [he]
      rfl
    · obtain ⟨nodes, hnodes, -⟩ := exists_encodeNodes h.comb
        (buildConeMasks g.cg f.netIndex g.cg.observable true) f []
      refine (if_neg hred).trans ?_
      rw [stuckAtCnf, hnodes]
      simp only [bind, Except.bind]
      rw [he]

/-- **The incremental solver has the verdict of the cone-restricted one**, errors
included, for every budget; and when it says `UNSAT` there is no test. -/
theorem solveStuckAtFaultIncremental_result_eq (solver : SatSolver ℕ) (g : CachedGraph)
    (hcomb : g.cg.Combinational) (hac : g.ng.Acyclic) (hone : g.cg.SingleDriver)
    (hpi : g.cg.InputsDriven) (f : CompactFault) (hf : f.netIndex < g.cg.netCount)
    (options : SatSolveOptions) :
    (solveStuckAtFaultIncremental solver g.cg (orderedPis g.parsed g.cg) f options).map
        SolveOutcome.result =
      (solveStuckAtFault solver g.cg (orderedPis g.parsed g.cg) f
        { options with coneRestrict := true }).map SolveOutcome.result ∧
    ∀ r, solveStuckAtFaultIncremental solver g.cg (orderedPis g.parsed g.cg) f options = .ok r →
      r.result = .UNSAT → ∀ v w, ¬ IsTest g.cg (orderedPis g.parsed g.cg) f
        options.blockedPatterns g.cg.observable v w := by
  have h : g.Equational := ⟨hcomb, hac, hone⟩
  have hpis : ∀ pi ∈ orderedPis g.parsed g.cg, pi.compiled ∈ g.cg.piNets :=
    fun pi hmem => (mem_orderedPis hmem).1
  by_cases hok : KeysOk (orderedPis g.parsed g.cg).length options.blockedPatterns
  · obtain ⟨r, hr, hans⟩ := exists_solveStuckAtFaultIncremental h hpi hpis hf solver options hok
    obtain ⟨r', hr', hans'⟩ := exists_solveStuckAtFault_cone h hpi hpis hf solver
      { options with coneRestrict := true } rfl hok
    rw [hr, hr']
    refine ⟨congrArg Except.ok (hans.result_eq hans'), fun r hr hunsat => ?_⟩
    cases hr
    exact hans.unsat hunsat
  · obtain ⟨x, hinc, hcone, hno⟩ := solve_malformed h solver hf options hok
    rw [hinc, hcone]
    exact ⟨rfl, fun r hr _ => hno r hr⟩

theorem andFork_incremental_result_eq :
    (solveStuckAtFaultIncremental .backtrack andFork.cg (orderedPis andFork.parsed andFork.cg)
        sharedInputFault { fupRegionBudget := 1 }).map SolveOutcome.result =
      (solveStuckAtFault .backtrack andFork.cg (orderedPis andFork.parsed andFork.cg)
        sharedInputFault { coneRestrict := true, fupRegionBudget := 1 }).map SolveOutcome.result ∧
    ∀ r, solveStuckAtFaultIncremental .backtrack andFork.cg
        (orderedPis andFork.parsed andFork.cg) sharedInputFault { fupRegionBudget := 1 } = .ok r →
      r.result = .UNSAT → ∀ v w, ¬ IsTest andFork.cg (orderedPis andFork.parsed andFork.cg)
        sharedInputFault [] andFork.cg.observable v w :=
  solveStuckAtFaultIncremental_result_eq .backtrack andFork (by decide +kernel)
    (andFork.levelized.acyclic_iff.2 (by decide +kernel)) (by decide +kernel) (by decide +kernel)
    sharedInputFault (by decide +kernel) { fupRegionBudget := 1 }

/-- On a net with two drivers, and on a pseudo-input with a driver of its own, the
incremental solver encodes one driver where the other encodes all. -/
theorem incremental_result_ne :
    (drivenConst.cg.Combinational ∧ drivenConst.ng.Acyclic ∧
      ((solveStuckAtFaultIncremental .backtrack drivenConst.cg
        (orderedPis drivenConst.parsed drivenConst.cg) { netIndex := 1 } {}).toOption.map
          SolveOutcome.result) = some .SAT ∧
      ((solveStuckAtFault .backtrack drivenConst.cg
        (orderedPis drivenConst.parsed drivenConst.cg) { netIndex := 1 }
        { coneRestrict := true }).toOption.map SolveOutcome.result) = some .UNSAT) ∧
    (drivenPseudoPi.cg.Combinational ∧ drivenPseudoPi.ng.Acyclic ∧
      ((solveStuckAtFaultIncremental .backtrack drivenPseudoPi.cg
        (orderedPis drivenPseudoPi.parsed drivenPseudoPi.cg) { netIndex := 0 } {}).toOption.map
          SolveOutcome.result) = some .SAT ∧
      ((solveStuckAtFault .backtrack drivenPseudoPi.cg
        (orderedPis drivenPseudoPi.parsed drivenPseudoPi.cg) { netIndex := 0 }
        { coneRestrict := true }).toOption.map SolveOutcome.result) = some .UNSAT) :=
  ⟨⟨by decide +kernel, drivenConst.levelized.acyclic_iff.2 (by decide +kernel),
      by decide +kernel, by decide +kernel⟩,
    ⟨by decide +kernel, drivenPseudoPi.levelized.acyclic_iff.2 (by decide +kernel),
      by decide +kernel, by decide +kernel⟩⟩

end FaultFlow.Atpg
