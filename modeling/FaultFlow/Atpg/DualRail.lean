/-
# Two machines in one assignment

An assignment of the variables holds two values of every net, that of the good
machine (`goodOf`) and that of the faulty one (`faultyOf`).  This file relates
assignments that satisfy the equations a solver encodes (`EqHolds`) to pairs of
machines: inside a set of nets closed under fan-in a model gives a pair of machines
(`exists_pair_of_eqs`), and a pair of machines satisfies every equation
(`EqHolds.of_testPair`).  The masks of the cone and of the whole circuit are both
instances.
-/

import FaultFlow.Atpg.ConeFacts
import FaultFlow.Atpg.Encoding

namespace FaultFlow.Atpg

open Lib

/-- The values of the two machines under an assignment of the variables. -/
def goodOf (a : ℕ → Bool) (i : CompiledNetIndex) : Bool := a (freeVar i)

@[inherit_doc goodOf]
def faultyOf (a : ℕ → Bool) (i : CompiledNetIndex) : Bool := a (faultyVar i)

theorem faultyInput_eq_piecewise (m : CompiledNetIndex → Bool) (a : ℕ → Bool) :
    faultyInput m a = Set.piecewise {i | m i = true} (faultyOf a) (goodOf a) := by
  funext i
  by_cases hi : m i = true
  · rw [faultyInput, if_pos hi]
    exact (Set.piecewise_eq_of_mem {i | m i = true} (faultyOf a) (goodOf a) hi).symm
  · rw [faultyInput, if_neg hi]
    exact (Set.piecewise_eq_of_notMem {i | m i = true} (faultyOf a) (goodOf a) hi).symm

/-- An equation in the two machines: in the good one where a mask asks for it, in
the faulty one inside the output cone. -/
def EqHolds (inOutcone : CompiledNetIndex → Bool) (faultNet : CompiledNetIndex) (good : Bool)
    (a : ℕ → Bool) (e : Assign CompiledNetIndex Bool) : Prop :=
  (good = true → goodOf a e.out = e.fn (goodOf a)) ∧
  (inOutcone e.out = true → e.out ≠ faultNet → faultyOf a e.out = e.fn (faultyInput inOutcone a))

variable {a : ℕ → Bool} {n next : ℕ} {v w : Values}

/-- For a gate these are the equations of its clauses. -/
theorem eqHolds_gateAssign {m : CompiledNetIndex → Bool} {f : CompiledNetIndex} {good : Bool}
    {n : SimNode} :
    EqHolds m f good a (CompiledSimGraph.gateAssign n) ↔ NodeHolds m f good a n := Iff.rfl

section Pairs

variable {as : List (Assign CompiledNetIndex Bool)} {rank : CompiledNetIndex → ℕ}
  (hrank : Assign.RankedBy rank as) {m : CompiledNetIndex → Bool} {f : CompiledNetIndex} {b : Bool}
  (hm : Assign.IsUpper as f {i | m i = true})

include hrank hm in
/-- **Models give pairs of machines**, with the values of the model on the nets of
the set and on those that nothing drives. -/
theorem exists_pair_of_eqs (hnd : (Assign.outs as).Nodup) {S : Set CompiledNetIndex}
    (hS : Assign.BackClosed as S) {a : ℕ → Bool}
    (heqs : ∀ e ∈ as, e.out ∈ S → EqHolds m f true a e) (hstuck : faultyOf a f = b)
    (htied : ∀ i ∈ S, m i = true → i ∉ Assign.outs as → i ≠ f → faultyOf a i = goodOf a i)
    {D : List CompiledNetIndex} (hD : ∀ o ∈ D, o ∈ S ∧ m o = true)
    (hdiff : ∃ o ∈ D, goodOf a o ≠ faultyOf a o) :
    ∃ v w, Assign.TestPair as f b v w ∧ (∃ o ∈ D, v o ≠ w o) ∧
      (∀ i ∈ S, v i = goodOf a i) ∧ ∀ i ∉ Assign.outs as, v i = goodOf a i := by
  have hpair : Assign.ConePair as f b {i | m i = true} S (goodOf a) (faultyOf a) := by
    refine ⟨fun e he hin => (heqs e he hin).1 rfl, fun e he hin hmo hne => ?_, hstuck⟩
    rw [← faultyInput_eq_piecewise]
    exact (heqs e he hin).2 hmo hne
  obtain ⟨v, w, htest, hv, hw, hbase⟩ := hpair.exists_testPair hnd hrank hm hS htied
  obtain ⟨o, ho, hne⟩ := hdiff
  refine ⟨v, w, htest, ⟨o, ho, ?_⟩, hv, hbase⟩
  rwa [hv o (hD o ho).1, hw o (hD o ho).1 (hD o ho).2]

include hrank hm in
/-- **Pairs of machines give models**: the equations hold under every assignment
with their values. -/
theorem EqHolds.of_testPair {v w : Values} (hpair : Assign.TestPair as f b v w)
    {e : Assign CompiledNetIndex Bool} (he : e ∈ as) {a : ℕ → Bool}
    (hgood : ∀ i, i = e.out ∨ i ∈ e.reads → goodOf a i = v i)
    (hfaulty : ∀ i, i = e.out ∨ i ∈ e.reads → faultyOf a i = w i) (good : Bool) :
    EqHolds m f good a e := by
  constructor
  · intro _
    rw [hgood e.out (.inl rfl), hpair.good e he]
    exact e.congr _ _ fun i hi => (hgood i (.inr hi)).symm
  · intro _ hne
    rw [hfaulty e.out (.inl rfl), hpair.faulty e (Assign.mem_dropOut.2 ⟨he, hne⟩)]
    refine e.congr _ _ fun i hi => ?_
    by_cases hi' : m i = true
    · rw [faultyInput, if_pos hi']
      exact (hfaulty i (.inr hi)).symm
    · rw [faultyInput, if_neg hi', hpair.eq_off_cone hrank hm hi']
      exact (hgood i (.inr hi)).symm

end Pairs

/-! ## Masks -/

/-- What the masks of a solver must be for its clauses to decide a fault: they keep
the equations of a set `S` closed under fan-in, and a net of `S` with two copies and
no equation is tied. -/
structure Covers (as : List (Assign CompiledNetIndex Bool)) (f : CompiledNetIndex)
    (Tied : CompiledNetIndex → Prop) (obs : List CompiledNetIndex) (masks : ConeMasks)
    (S : Set CompiledNetIndex) : Prop where
  upper : Assign.IsUpper as f {i | masks.inOutcone i = true}
  back : Assign.BackClosed as S
  support : ∀ i ∈ S, masks.inSupport i = true
  observed : ∀ o, o ∈ masks.observed ↔ o ∈ obs ∧ masks.inOutcone o = true
  kept : ∀ o ∈ masks.observed, o ∈ S
  tied : ∀ i ∈ S, masks.inOutcone i = true → i ∉ Assign.outs as → i ≠ f → Tied i
  decided : masks.redundant = masks.observed.isEmpty

namespace Covers

variable {as : List (Assign CompiledNetIndex Bool)} {rank : CompiledNetIndex → ℕ}
  (hrank : Assign.RankedBy rank as) {f : CompiledNetIndex} {b : Bool} {Tied : CompiledNetIndex → Prop}
  {obs : List CompiledNetIndex} {masks : ConeMasks} {S : Set CompiledNetIndex}
  (h : Covers as f Tied obs masks S)

include hrank h

/-- A difference on an observation point is one that the masks keep. -/
theorem exists_observed {v w : Values} (hpair : Assign.TestPair as f b v w)
    (hdiff : ∃ o ∈ obs, v o ≠ w o) : ∃ o ∈ masks.observed, v o ≠ w o := by
  obtain ⟨o, ho, hne⟩ := hdiff
  refine ⟨o, (h.observed o).2 ⟨ho, ?_⟩, hne⟩
  by_contra hnot
  exact hne (hpair.eq_off_cone hrank h.upper hnot).symm

/-- **Models under the masks give pairs of machines.** -/
theorem exists_pair (hnd : (Assign.outs as).Nodup) {a : ℕ → Bool}
    (heqs : ∀ e ∈ as, EqHolds masks.inOutcone f (masks.inSupport e.out) a e)
    (hstuck : faultyOf a f = b)
    (htied : ∀ i, Tied i → i ≠ f → masks.inOutcone i = true → goodOf a i = faultyOf a i)
    (hdiff : ∃ o ∈ masks.observed, goodOf a o ≠ faultyOf a o) :
    ∃ v w, Assign.TestPair as f b v w ∧ (∃ o ∈ obs, v o ≠ w o) ∧
      (∀ i ∈ S, v i = goodOf a i) ∧ ∀ i ∉ Assign.outs as, v i = goodOf a i := by
  have heqs' : ∀ e ∈ as, e.out ∈ S → EqHolds masks.inOutcone f true a e := by
    intro e he hin
    rw [← h.support e.out hin]
    exact heqs e he
  obtain ⟨v, w, hpair, ⟨o, ho, hne⟩, hS, hbase⟩ := exists_pair_of_eqs hrank h.upper hnd h.back heqs'
    hstuck (fun i hi hmi hout hf => (htied i (h.tied i hi hmi hout hf) hf hmi).symm)
    (fun o ho => ⟨h.kept o ho, ((h.observed o).1 ho).2⟩) hdiff
  exact ⟨v, w, hpair, ⟨o, ((h.observed o).1 ho).1, hne⟩, hS, hbase⟩

end Covers

/-! ## Assignments with differences -/

/-- The assignment holds the values of the nets below `n`. -/
def Agrees (n : ℕ) (a : ℕ → Bool) (v w : Values) : Prop :=
  ∀ i < n, goodOf a i = v i ∧ faultyOf a i = w i

theorem agrees_dual (n : ℕ) (v w : Values) : Agrees n (dual v w) v w := fun i _ =>
  ⟨dual_freeVar v w i, dual_faultyVar v w i⟩

/-- Giving values to further variables changes no net. -/
theorem Agrees.extend (h : Agrees n a v w) (hnext : nextVar n ≤ next) (bits : List Bool) :
    Agrees n (extend next a bits) v w := by
  intro i hi
  have hfree := lt_of_lt_of_le (freeVar_lt hi) hnext
  have hfaulty := lt_of_lt_of_le (faultyVar_lt hi) hnext
  rw [goodOf, faultyOf, extend_of_lt _ _ hfree, extend_of_lt _ _ hfaulty]
  exact h i hi

/-- **The miter of given values**: the difference variables can be defined, and
their clause holds when an observed net differs. -/
theorem Agrees.withDiffs (h : Agrees n a v w) (hnext : nextVar n ≤ next) {D : List CompiledNetIndex}
    (hD : ∀ o ∈ D, o < n) : Agrees n (withDiffs next a D) v w ∧
      Satisfies (withDiffs next a D) (diffClauses next D) ∧
      ∀ C E, D = C ++ E → (∃ o ∈ E, v o ≠ w o) → Std.Sat.CNF.Clause.eval (Atpg.withDiffs next a D)
        (diffLits (next + C.length) E) = true := by
  have hagrees : Agrees n (Atpg.withDiffs next a D) v w := h.extend hnext _
  have hdiff := satisfies_withDiffs (a := a) fun o ho =>
    ⟨lt_of_lt_of_le (freeVar_lt (hD o ho)) hnext, lt_of_lt_of_le (faultyVar_lt (hD o ho)) hnext⟩
  refine ⟨hagrees, hdiff, ?_⟩
  rintro C E rfl ⟨o, ho, hne⟩
  rw [diffClauses_append, satisfies_append] at hdiff
  refine (eval_diffLits_iff hdiff.2).2 ⟨o, ho, ?_⟩
  obtain ⟨hgood, hfaulty⟩ := hagrees o (hD o (List.mem_append_right _ ho))
  show goodOf (Atpg.withDiffs next a (C ++ E)) o ≠ faultyOf (Atpg.withDiffs next a (C ++ E)) o
  rwa [hgood, hfaulty]

end FaultFlow.Atpg
