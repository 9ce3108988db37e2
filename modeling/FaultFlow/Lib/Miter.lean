/-
# Good and faulty solutions of a system of equations

A combinational circuit is a system of equations, one for each net that a gate
drives; a rank that rises from the inputs of an equation to its output makes the
solution exist and be unique (`exists_solves`, `solvesOn_unique`).  A stuck net
drops one equation.  A `TestPair` is a solution of the whole system and one with
net `f` stuck, which agree where no equation decides.

* `TestPair.eq_off_cone`: the two agree outside the fanout cone of `f`.
* `ConePair.exists_testPair`: values that satisfy only the equations of a set
  closed under fan-in, with the faulty values kept inside the cone, extend to a
  `TestPair`.
* `TestPair.exists_cut`: a difference outside a region around `f` crosses its
  boundary.
-/

import Mathlib.Data.List.Sort
import Mathlib.Data.Set.Piecewise
import Mathlib.Logic.Relation
import FaultFlow.Lib.Straight

namespace FaultFlow.Lib.Assign

variable {ι : Type*} [DecidableEq ι] {β : Type*}

/-- Values that satisfy every equation. -/
def Solves (as : List (Assign ι β)) (v : ι → β) : Prop := ∀ a ∈ as, v a.out = a.fn v

/-- Values that satisfy the equations of the nets in `S`. -/
def SolvesOn (S : Set ι) (as : List (Assign ι β)) (v : ι → β) : Prop :=
  ∀ a ∈ as, a.out ∈ S → v a.out = a.fn v

/-- The rank rises from what an equation reads of the others to its output. -/
def RankedBy (rank : ι → ℕ) (as : List (Assign ι β)) : Prop :=
  ∀ a ∈ as, ∀ i ∈ a.reads, i ∈ outs as → rank i < rank a.out

/-- The equations of `S` read nets of `S` only. -/
def BackClosed (as : List (Assign ι β)) (S : Set ι) : Prop :=
  ∀ a ∈ as, a.out ∈ S → ∀ i ∈ a.reads, i ∈ S

/-- Net `i` feeds net `t`. -/
def Fans (as : List (Assign ι β)) (i t : ι) : Prop := ∃ a ∈ as, i ∈ a.reads ∧ a.out = t

variable {as : List (Assign ι β)} {rank : ι → ℕ} {i : ι}

omit [DecidableEq ι] in
theorem mem_outs : i ∈ outs as ↔ ∃ a ∈ as, a.out = i := List.mem_map

omit [DecidableEq ι] in
theorem Solves.on {v : ι → β} (h : Solves as v) (S : Set ι) : SolvesOn S as v :=
  fun a ha _ => h a ha

variable {S : Set ι}

omit [DecidableEq ι] in
/-- **A solution is determined by the nets without an equation.** -/
theorem solvesOn_unique (hrank : RankedBy rank as) (hS : BackClosed as S) {v w : ι → β}
    (hv : SolvesOn S as v) (hw : SolvesOn S as w) (hbase : ∀ i ∈ S, i ∉ outs as → v i = w i)
    (hi : i ∈ S) : v i = w i := by
  induction hn : rank i using Nat.strong_induction_on generalizing i with
  | _ n ih =>
    by_cases hout : i ∈ outs as
    · obtain ⟨a, ha, rfl⟩ := mem_outs.1 hout
      rw [hv a ha hi, hw a ha hi]
      refine a.congr _ _ fun j hj => ?_
      have hjS := hS a ha hi j hj
      by_cases hjout : j ∈ outs as
      · exact ih (rank j) (hn ▸ hrank a ha j hj hjout) hjS rfl
      · exact hbase j hjS hjout
    · exact hbase i hi hout

/-- **A solution exists**, whatever values the nets without an equation have. -/
theorem exists_solves (hnd : (outs as).Nodup) (hrank : RankedBy rank as) (x : ι → β) :
    ∃ v, Solves as v ∧ ∀ i ∉ outs as, v i = x i := by
  -- run the equations by rank
  let sorted := as.insertionSort fun a b => rank a.out ≤ rank b.out
  have hperm : sorted.Perm as := List.perm_insertionSort _ _
  have houts : ∀ i, i ∈ outs sorted ↔ i ∈ outs as := fun i => (hperm.map out).mem_iff
  have hsorted : sorted.Pairwise fun a b => rank a.out ≤ rank b.out :=
    have : IsTrans (Assign ι β) fun a b => rank a.out ≤ rank b.out := ⟨fun _ _ _ => le_trans⟩
    have : Std.Total fun a b : Assign ι β => rank a.out ≤ rank b.out := ⟨fun _ _ => le_total _ _⟩
    List.pairwise_insertionSort _ _
  have hfresh : Fresh {i | i ∈ outs sorted} sorted := by
    refine fresh_iff.2 fun pre a post heq i hi hmem => ?_
    have ha : a ∈ as := hperm.mem_iff.1 (by simp [heq])
    have hlt := hrank a ha i hi ((houts i).1 hmem)
    obtain ⟨b, hb, rfl⟩ := mem_outs.1 hmem
    rw [heq, List.mem_append, List.mem_cons] at hb
    rcases hb with hb | rfl | hb
    · exact mem_outs.2 ⟨b, hb, rfl⟩
    · exact absurd hlt (lt_irrefl _)
    · rw [heq, List.pairwise_append, List.pairwise_cons] at hsorted
      exact absurd hlt (Nat.not_lt.2 (hsorted.2.1.1 b hb))
  refine ⟨run sorted x, fun a ha => ?_, fun i hi => run_of_not_mem (mt (houts i).1 hi) x⟩
  exact run_eq_fn hfresh ((hperm.map out).nodup_iff.2 hnd) x (hperm.mem_iff.2 ha)

/-! ## A stuck net -/

/-- The equations that are left when net `f` is stuck. -/
def dropOut (f : ι) (as : List (Assign ι β)) : List (Assign ι β) := as.filter fun a => a.out ≠ f

theorem mem_dropOut {f : ι} {a : Assign ι β} : a ∈ dropOut f as ↔ a ∈ as ∧ a.out ≠ f := by
  simp [dropOut]

theorem mem_outs_dropOut {f i : ι} : i ∈ outs (dropOut f as) ↔ i ∈ outs as ∧ i ≠ f := by
  simp only [mem_outs, mem_dropOut]
  constructor
  · rintro ⟨a, ⟨ha, hne⟩, rfl⟩
    exact ⟨⟨a, ha, rfl⟩, hne⟩
  · rintro ⟨⟨a, ha, rfl⟩, hne⟩
    exact ⟨a, ⟨ha, hne⟩, rfl⟩

theorem RankedBy.dropOut (h : RankedBy rank as) (f : ι) : RankedBy rank (dropOut f as) :=
  fun a ha i hi hout => h a (mem_dropOut.1 ha).1 i hi (mem_outs_dropOut.1 hout).1

theorem BackClosed.dropOut (h : BackClosed as S) (f : ι) :
    BackClosed (dropOut f as) S :=
  fun a ha => h a (mem_dropOut.1 ha).1

theorem nodup_outs_dropOut (h : (outs as).Nodup) (f : ι) : (outs (dropOut f as)).Nodup :=
  h.sublist (List.filter_sublist.map out)

/-- The values of the good machine and of the machine with net `f` stuck at `b`. -/
structure TestPair (as : List (Assign ι β)) (f : ι) (b : β) (v w : ι → β) : Prop where
  good : Solves as v
  faulty : Solves (dropOut f as) w
  stuck : w f = b
  base : ∀ i ∉ outs as, i ≠ f → w i = v i

variable {f : ι} {b : β} {v w : ι → β}

/-- **Both machines have a solution** for every value of the inputs. -/
theorem exists_faulty (hnd : (outs as).Nodup) (hrank : RankedBy rank as) (hv : Solves as v) (f : ι)
    (b : β) : ∃ w, TestPair as f b v w := by
  obtain ⟨w, hw, hbase⟩ := exists_solves (nodup_outs_dropOut hnd f) (hrank.dropOut f)
    (Function.update v f b)
  refine ⟨w, hv, hw, ?_, fun i hi hne => ?_⟩
  · rw [hbase f (by simp [mem_outs_dropOut]), Function.update_self]
  · rw [hbase i (by simp [mem_outs_dropOut, hi]), Function.update_of_ne hne]

/-- **Systems that share the equations of `S` have the same pairs of machines
there**, for the same inputs. -/
theorem TestPair.eq_of_shared {bs : List (Assign ι β)} {v' w' : ι → β} (h : TestPair as f b v w)
    (h' : TestPair bs f b v' w') (hrank : RankedBy rank as) (hS : BackClosed as S)
    (hshare : ∀ a ∈ as, a.out ∈ S → a ∈ bs) (houts : ∀ i ∈ S, i ∉ outs as → i ∉ outs bs)
    (hbase : ∀ i ∈ S, i ∉ outs as → v i = v' i) (hi : i ∈ S) : v i = v' i ∧ w i = w' i := by
  have hgood : SolvesOn S as v' := fun a ha hout => h'.good a (hshare a ha hout)
  have hfaulty : SolvesOn S (Assign.dropOut f as) w' := by
    intro a ha hout
    obtain ⟨ha, hne⟩ := mem_dropOut.1 ha
    exact h'.faulty a (mem_dropOut.2 ⟨hshare a ha hout, hne⟩)
  refine ⟨solvesOn_unique hrank hS (h.good.on S) hgood hbase hi, ?_⟩
  refine solvesOn_unique (hrank.dropOut f) (hS.dropOut f) (h.faulty.on S) hfaulty
    (fun j hj hout => ?_) hi
  by_cases hjf : j = f
  · rw [hjf, h.stuck, h'.stuck]
  · have hjout : j ∉ outs as := fun hj' => hout (mem_outs_dropOut.2 ⟨hj', hjf⟩)
    rw [h.base j hjout hjf, h'.base j (houts j hj hjout) hjf, hbase j hj hjout]

/-- **A pair of machines is determined by its inputs.** -/
theorem TestPair.eq_of_base {v' w' : ι → β} (h : TestPair as f b v w) (h' : TestPair as f b v' w')
    (hrank : RankedBy rank as) (hS : BackClosed as S) (hbase : ∀ i ∈ S, i ∉ outs as → v i = v' i)
    (hi : i ∈ S) : v i = v' i ∧ w i = w' i :=
  h.eq_of_shared h' hrank hS (fun _ ha _ => ha) (fun _ _ hout => hout) hbase hi

/-- A set around `f` that everything fed from it belongs to. -/
structure IsUpper (as : List (Assign ι β)) (f : ι) (O : Set ι) : Prop where
  self : f ∈ O
  closed : ∀ i ∈ O, ∀ t, Fans as i t → t ∈ O

/-- Such a set in which everything but `f` is driven. -/
structure IsCone (as : List (Assign ι β)) (f : ι) (O : Set ι) : Prop extends IsUpper as f O where
  driven : ∀ t ∈ O, t ≠ f → t ∈ outs as

omit [DecidableEq ι] in
/-- The nets that `f` reaches are a cone. -/
theorem isCone_reach {O : Set ι} (h : ∀ t, t ∈ O ↔ Relation.ReflTransGen (Fans as) f t) :
    IsCone as f O where
  self := (h f).2 .refl
  closed i hi t ht := (h t).2 (((h i).1 hi).tail ht)
  driven t ht hne := by
    rcases Relation.ReflTransGen.cases_tail ((h t).1 ht) with rfl | ⟨i, -, a, ha, -, hout⟩
    · exact absurd rfl hne
    · exact mem_outs.2 ⟨a, ha, hout⟩

/-- **Outside the cone of the fault the machines agree.** -/
theorem TestPair.eq_off_cone (h : TestPair as f b v w) (hrank : RankedBy rank as) {O : Set ι}
    (hO : IsUpper as f O) (hi : i ∉ O) : w i = v i := by
  have hne : ∀ j ∈ Oᶜ, j ≠ f := fun j hj hjf => hj (hjf ▸ hO.self)
  refine solvesOn_unique hrank (S := Oᶜ) (fun a ha hout j hj hjO => hout ?_) ?_ (h.good.on _) ?_ hi
  · exact hO.closed j hjO a.out ⟨a, ha, hj, rfl⟩
  · exact fun a ha hout => h.faulty a (mem_dropOut.2 ⟨ha, hne _ hout⟩)
  · exact fun j hj hout => h.base j hout (hne j hj)

section Cone

variable {O : Set ι} [DecidablePred (· ∈ O)]

/-- Values that satisfy the equations of `S`, the faulty ones inside the cone `O`
only: outside it the faulty machine reads the good values. -/
structure ConePair (as : List (Assign ι β)) (f : ι) (b : β) (O S : Set ι) [DecidablePred (· ∈ O)]
    (v w : ι → β) : Prop where
  good : SolvesOn S as v
  faulty : ∀ a ∈ as, a.out ∈ S → a.out ∈ O → a.out ≠ f → w a.out = a.fn (O.piecewise w v)
  stuck : w f = b

/-- **The cone decides.**  Values that fit the equations of a set closed under
fan-in, with faulty values in the cone only and tied there where nothing drives
them, come from a pair of machines. -/
theorem ConePair.exists_testPair (h : ConePair as f b O S v w) (hnd : (outs as).Nodup)
    (hrank : RankedBy rank as) (hO : IsUpper as f O) (hS : BackClosed as S)
    (htied : ∀ i ∈ S, i ∈ O → i ∉ outs as → i ≠ f → w i = v i) :
    ∃ V W, TestPair as f b V W ∧ (∀ i ∈ S, V i = v i) ∧ (∀ i ∈ S, i ∈ O → W i = w i) ∧
      ∀ i ∉ outs as, V i = v i := by
  obtain ⟨V, hV, hbase⟩ := exists_solves hnd hrank v
  obtain ⟨W, hW⟩ := exists_faulty hnd hrank hV f b
  have hgood : ∀ i ∈ S, V i = v i := fun i hi =>
    solvesOn_unique hrank hS (hV.on S) h.good (fun j _ hj => hbase j hj) hi
  refine ⟨V, W, hW, hgood, fun i hi hiO => ?_, hbase⟩
  -- the faulty values, read through the cone, solve the faulty equations of `S`
  have hsolves : SolvesOn S (dropOut f as) (O.piecewise w v) := by
    intro a ha hout
    obtain ⟨ha, hne⟩ := mem_dropOut.1 ha
    by_cases haO : a.out ∈ O
    · rw [Set.piecewise_eq_of_mem _ _ _ haO]
      exact h.faulty a ha hout haO hne
    · rw [Set.piecewise_eq_of_notMem _ _ _ haO, h.good a ha hout]
      refine a.congr _ _ fun j hj => ?_
      have hjO : j ∉ O := fun hjO => haO (hO.closed j hjO _ ⟨a, ha, hj, rfl⟩)
      rw [Set.piecewise_eq_of_notMem _ _ _ hjO]
  have heq := solvesOn_unique (hrank.dropOut f) (hS.dropOut f) (hW.faulty.on S) hsolves
    (fun j hj hout => ?_) hi
  · rw [heq, Set.piecewise_eq_of_mem _ _ _ hiO]
  · by_cases hjf : j = f
    · subst hjf
      rw [hW.stuck, Set.piecewise_eq_of_mem _ _ _ hO.self, h.stuck]
    · have hjout : j ∉ outs as := fun hj' => hout (mem_outs_dropOut.2 ⟨hj', hjf⟩)
      rw [hW.base j hjout hjf, hbase j hjout]
      by_cases hjO : j ∈ O
      · rw [Set.piecewise_eq_of_mem _ _ _ hjO, htied j hj hjO hjout hjf]
      · rw [Set.piecewise_eq_of_notMem _ _ _ hjO]

end Cone

variable {t : ι}

/-- A net the machines differ on, other than `f`, is fed by such a net. -/
theorem TestPair.exists_fans (h : TestPair as f b v w) (ht : w t ≠ v t) (hne : t ≠ f) :
    t ∈ outs as ∧ ∃ i, w i ≠ v i ∧ ∃ a ∈ as, i ∈ a.reads ∧ a.out = t := by
  by_cases hout : t ∈ outs as
  · refine ⟨hout, ?_⟩
    obtain ⟨a, ha, rfl⟩ := mem_outs.1 hout
    by_contra hcon
    rw [h.faulty a (mem_dropOut.2 ⟨ha, hne⟩), h.good a ha] at ht
    refine ht (a.congr _ _ fun i hi => ?_)
    by_contra hi'
    exact hcon ⟨i, hi', a, ha, hi, rfl⟩
  · exact absurd (h.base t hout hne) ht

/-- **A difference outside a region around the fault crosses its boundary.** -/
theorem TestPair.exists_cut (h : TestPair as f b v w) (hrank : RankedBy rank as) {R : Set ι}
    (hf : f ∈ R) (ht : w t ≠ v t) (htR : t ∉ R) :
    ∃ r ∈ R, w r ≠ v r ∧ ∃ t' ∉ R, Fans as r t' := by
  induction hn : rank t using Nat.strong_induction_on generalizing t with
  | _ n ih =>
    obtain ⟨-, i, hi, a, ha, hread, hout⟩ := h.exists_fans ht fun heq => htR (heq ▸ hf)
    by_cases hiR : i ∈ R
    · exact ⟨i, hiR, hi, t, htR, a, ha, hread, hout⟩
    · obtain ⟨hiout, -⟩ := h.exists_fans hi fun heq => hiR (heq ▸ hf)
      have hlt := hrank a ha i hread hiout
      rw [hout, hn] at hlt
      exact ih (rank i) hlt hi hiR rfl

/-- **Machines that differ anywhere differ at the fault.** -/
theorem TestPair.site_differs (h : TestPair as f b v w) (hrank : RankedBy rank as) (ht : w t ≠ v t) :
    v f ≠ b := by
  rw [← h.stuck]
  by_cases htf : t = f
  · exact Ne.symm (htf ▸ ht)
  · obtain ⟨r, hr, hne, -⟩ := h.exists_cut hrank (Set.mem_singleton f) ht htf
    obtain rfl := hr
    exact Ne.symm hne

end FaultFlow.Lib.Assign
