/-
# Longest-path levels by Kahn's algorithm

Nodes that no unprocessed edge enters wait in a queue; taking one out raises
the level of every consumer to one more than its own and uses up the edge.  The
edges are a list, so parallel edges count as often as they occur.

On an acyclic graph the loop visits every node, and then the levels increase
along every edge (`levels_lt`).  A node that no edge enters stays at level `0`
on any graph (`levels_eq_zero`).
-/

import Mathlib.Data.List.Basic
import Mathlib.Data.List.Nodup
import Mathlib.Logic.Relation
import Mathlib.Data.Fintype.Card
import Mathlib.Data.Set.Finite.List
import Mathlib.Order.WellFounded
import Mathlib.Tactic.Common
import FaultFlow.Lib.Loop

namespace FaultFlow.Lib.Kahn

variable {α : Type*} [DecidableEq α]

/-- The queue, the number of unprocessed edges into each node, and the levels. -/
structure State (α : Type*) where
  ready : List α
  indeg : α → ℕ
  level : α → ℕ

/-- The nodes that the edges out of `u` enter. -/
def consumers (edges : List (α × α)) (u : α) : List α :=
  (edges.filter fun e => e.1 = u).map Prod.snd

/-- The number of edges into `v`. -/
def indegree (edges : List (α × α)) (v : α) : ℕ := edges.countP fun e => e.2 = v

/-- Use up one edge into `v` from a node one below `next`. -/
def relax (next : ℕ) (s : State α) (v : α) : State α where
  level := if s.level v < next then Function.update s.level v next else s.level
  indeg := Function.update s.indeg v (s.indeg v - 1)
  ready := if s.indeg v - 1 = 0 then s.ready ++ [v] else s.ready

/-- Take one node out of the queue and relax its consumers. -/
def visit (edges : List (α × α)) (s : State α) (u : α) (rest : List α) : State α :=
  (consumers edges u).foldl (relax (s.level u + 1)) { s with ready := rest }

/-- The loop over the queue, for at most `fuel` nodes. -/
def loop (edges : List (α × α)) : ℕ → State α → State α
  | 0, s => s
  | fuel + 1, s =>
    match s.ready with
    | [] => s
    | u :: rest => loop edges fuel (visit edges s u rest)

/-- Every node no edge enters is in the queue, and every level is `0`. -/
def start (nodes : List α) (edges : List (α × α)) : State α where
  ready := nodes.filter fun v => indegree edges v = 0
  indeg := indegree edges
  level := fun _ => 0

/-- The levels. -/
def levels (nodes : List α) (edges : List (α × α)) : α → ℕ :=
  (loop edges nodes.length (start nodes edges)).level

variable {nodes : List α} {edges : List (α × α)}

/-- The edges into `v` out of nodes not visited yet. -/
def pending (edges : List (α × α)) (done : List α) (v : α) : ℕ :=
  edges.countP fun e => e.2 = v ∧ e.1 ∉ done

theorem consumers_count (u v : α) :
    (consumers edges u).count v = edges.countP fun e => e.2 = v ∧ e.1 = u := by
  rw [consumers, List.count_eq_countP, List.countP_map, List.countP_filter]
  exact List.countP_congr fun e _ => by simp [and_comm]

variable {u v : α} {done : List α}

theorem mem_consumers : v ∈ consumers edges u ↔ (u, v) ∈ edges := by
  simp [consumers]

/-- Visiting `u` takes its edges off the pending ones. -/
theorem pending_eq_add (done : List α) (hu : u ∉ done) (v : α) :
    pending edges done v = pending edges (u :: done) v + (consumers edges u).count v := by
  rw [consumers_count, pending, pending]
  induction edges with
  | nil => rfl
  | cons e es ih =>
    rw [List.countP_cons, List.countP_cons, List.countP_cons, ih]
    by_cases hv : e.2 = v
    · by_cases he : e.1 = u
      · simp [hv, he, hu, Nat.add_assoc]
      · simp [hv, he, Nat.add_right_comm]
    · simp [hv]

theorem pending_eq_zero : pending edges done v = 0 ↔ ∀ u, (u, v) ∈ edges → u ∈ done := by
  rw [pending, List.countP_eq_zero]
  constructor
  · intro h u hu
    by_contra hd
    exact h (u, v) hu (by simpa using hd)
  · rintro h ⟨u, w⟩ he
    simp only [decide_eq_true_eq, not_and, not_not]
    rintro rfl
    exact h u he

/-- **The invariant of the loop.**  `done` are the nodes taken out so far and
`rem` the edges out of the last of them that are still to be relaxed.  The
visited and the waiting nodes are those without an unprocessed edge into them,
and the levels increase along every processed edge. -/
structure Inv (nodes : List α) (edges : List (α × α)) (done : List α) (rem : List (α × α))
    (s : State α) : Prop where
  nodup : (done ++ s.ready).Nodup
  sub : ∀ v ∈ done ++ s.ready, v ∈ nodes
  free : ∀ v ∈ nodes, v ∈ done ++ s.ready ↔ s.indeg v = 0
  indeg : ∀ v, s.indeg v = pending edges done v + (rem.map Prod.snd).count v
  lt : ∀ u ∈ done, ∀ v, (u, v) ∈ edges → s.level u < s.level v ∨ (u, v) ∈ rem

namespace Inv

variable {rem : List (α × α)} {s : State α}

/-- A node with an edge still to be relaxed has not been visited. -/
theorem not_mem_of_rem (h : Inv nodes edges done ((u, v) :: rem) s) (hv : v ∈ nodes) :
    v ∉ done ++ s.ready := by
  rw [h.free v hv, h.indeg]
  simp

/-- Relaxing an edge does not change the level of a visited node. -/
theorem relax_level_of_mem (h : Inv nodes edges done ((u, v) :: rem) s) (hv : v ∈ nodes)
    {next : ℕ} {w : α} (hw : w ∈ done) : (relax next s v).level w = s.level w := by
  have hne : w ≠ v := fun hwv =>
    h.not_mem_of_rem hv (List.mem_append_left _ (hwv ▸ hw))
  simp only [relax]
  split
  · exact Function.update_of_ne hne _ _
  · rfl

theorem level_le_relax (next : ℕ) (s : State α) (v w : α) :
    s.level w ≤ (relax next s v).level w := by
  simp only [relax]
  split
  · by_cases hw : w = v
    · subst hw
      rw [Function.update_self]
      omega
    · rw [Function.update_of_ne hw]
  · exact le_rfl

theorem le_relax_level (next : ℕ) (s : State α) (v : α) : next ≤ (relax next s v).level v := by
  simp only [relax]
  split
  · rw [Function.update_self]
  · omega

/-- **One edge.** -/
theorem relax (h : Inv nodes edges done ((u, v) :: rem) s) (hu : u ∈ done) (hv : v ∈ nodes) :
    Inv nodes edges done rem (relax (s.level u + 1) s v) := by
  have hfresh := h.not_mem_of_rem hv
  have hdeg := h.indeg v
  rw [List.map_cons, List.count_cons_self] at hdeg
  have hmem : ∀ w, w ∈ done ++ (Kahn.relax (s.level u + 1) s v).ready ↔
      w ∈ done ++ s.ready ∨ (w = v ∧ s.indeg v - 1 = 0) := by
    intro w
    simp only [Kahn.relax]
    by_cases h0 : s.indeg v - 1 = 0
    · simp [h0, or_assoc]
    · simp [h0]
  refine ⟨?_, ?_, ?_, ?_, ?_⟩
  · simp only [Kahn.relax]
    split
    · rw [← List.append_assoc]
      exact List.nodup_append.2 ⟨h.nodup, by simp, by
        rintro a ha b hb rfl
        exact hfresh (List.mem_singleton.1 hb ▸ ha)⟩
    · exact h.nodup
  · intro w hw
    rcases (hmem w).1 hw with hw | ⟨rfl, -⟩
    · exact h.sub w hw
    · exact hv
  · intro w hw
    rw [hmem, h.free w hw]
    by_cases hwv : w = v
    · subst hwv
      simp only [Kahn.relax, Function.update_self, true_and]
      omega
    · simp [Kahn.relax, hwv]
  · intro w
    by_cases hwv : w = v
    · subst hwv
      simp only [Kahn.relax, Function.update_self]
      omega
    · have hw := h.indeg w
      rw [List.map_cons, List.count_cons_of_ne (Ne.symm hwv)] at hw
      simpa only [Kahn.relax, Function.update_of_ne hwv] using hw
  · intro w hw x hx
    rw [h.relax_level_of_mem hv hw]
    rcases h.lt w hw x hx with hlt | hrem
    · exact .inl (hlt.trans_le (level_le_relax ..))
    · rcases List.mem_cons.1 hrem with heq | hrem
      · obtain ⟨rfl, rfl⟩ := Prod.mk.injEq .. ▸ heq
        exact .inl (le_relax_level ..)
      · exact .inr hrem

/-- All edges out of one node. -/
theorem relax_all {cs : List α} (hu : u ∈ done) (hcs : ∀ v ∈ cs, v ∈ nodes)
    (h : Inv nodes edges done (cs.map (u, ·)) s) :
    Inv nodes edges done [] (cs.foldl (Kahn.relax (s.level u + 1)) s) := by
  induction cs generalizing s with
  | nil => exact h
  | cons v cs ih =>
    rw [List.map_cons] at h
    have hv := hcs v (by simp)
    have hrel := ih (fun w hw => hcs w (by simp [hw])) (h.relax hu hv)
    rwa [h.relax_level_of_mem hv hu] at hrel

/-- **One node.** -/
theorem visit {rest : List α} (hedges : ∀ e ∈ edges, e.1 ∈ nodes ∧ e.2 ∈ nodes)
    (h : Inv nodes edges done [] s) (hr : s.ready = u :: rest) :
    Inv nodes edges (u :: done) [] (visit edges s u rest) := by
  have hperm : (done ++ s.ready).Perm (u :: done ++ rest) := by
    rw [hr]
    exact List.perm_middle
  have hu : u ∉ done := by
    have := hperm.nodup_iff.1 h.nodup
    simp only [List.cons_append, List.nodup_cons, List.mem_append, not_or] at this
    exact this.1.1
  refine relax_all (s := { s with ready := rest }) (by simp)
    (fun v hv => (hedges _ (mem_consumers.1 hv)).2) ⟨?_, ?_, ?_, ?_, ?_⟩
  · exact hperm.nodup_iff.1 h.nodup
  · exact fun v hv => h.sub v (hperm.mem_iff.2 hv)
  · exact fun v hv => hperm.mem_iff.symm.trans (h.free v hv)
  · intro v
    have hv := h.indeg v
    rw [pending_eq_add done hu v] at hv
    simpa [List.map_map, Function.comp_def] using hv
  · intro w hw v hv
    rcases List.mem_cons.1 hw with rfl | hw
    · exact .inr (List.mem_map.2 ⟨v, mem_consumers.2 hv, rfl⟩)
    · exact .inl ((h.lt w hw v hv).resolve_right (by simp))

/-- The visited and the waiting nodes are not more than all nodes. -/
theorem length_le (h : Inv nodes edges done [] s) :
    done.length + s.ready.length ≤ nodes.length := by
  rw [← List.length_append]
  exact (List.subperm_of_subset h.nodup h.sub).length_le

end Inv

theorem inv_start (hnodup : nodes.Nodup) : Inv nodes edges [] [] (start nodes edges) := by
  refine ⟨hnodup.filter _, ?_, ?_, ?_, ?_⟩
  · intro v hv
    exact List.mem_of_mem_filter hv
  · intro v hv
    simp [start, hv]
  · intro v
    simp [start, indegree, pending]
  · intro u hu
    simp at hu

/-- **The loop ends with an empty queue**, since every turn visits a new node. -/
theorem exists_inv_loop (hedges : ∀ e ∈ edges, e.1 ∈ nodes ∧ e.2 ∈ nodes) (fuel : ℕ) {s : State α}
    (h : Inv nodes edges done [] s) (hfuel : nodes.length ≤ done.length + fuel) :
    ∃ done', Inv nodes edges done' [] (loop edges fuel s) ∧ (loop edges fuel s).ready = [] := by
  induction fuel generalizing done s with
  | zero =>
    have := h.length_le
    exact ⟨done, h, List.length_eq_zero_iff.1 (by simp only [loop]; omega)⟩
  | succ fuel ih =>
    cases hr : s.ready with
    | nil => exact ⟨done, by simpa [loop, hr] using h, by simp [loop, hr]⟩
    | cons u rest =>
      have := ih (h.visit hedges hr) (by simp only [List.length_cons]; omega)
      simpa [loop, hr] using this

omit [DecidableEq α] in
/-- In a finite graph without a cycle, a property that passes from the sources
of the edges into a node to the node holds of every node. -/
theorem induction_of_acyclic (hac : ∀ v, ¬ Relation.TransGen (fun u v => (u, v) ∈ edges) v v)
    (hedges : ∀ e ∈ edges, e.1 ∈ nodes ∧ e.2 ∈ nodes) {P : α → Prop}
    (step : ∀ v ∈ nodes, (∀ u, (u, v) ∈ edges → P u) → P v) : ∀ v ∈ nodes, P v := by
  let r : {v // v ∈ nodes} → {v // v ∈ nodes} → Prop :=
    fun u v => Relation.TransGen (fun u v => (u, v) ∈ edges) u.1 v.1
  have hwf : WellFounded r := by
    have : IsTrans _ r := ⟨fun _ _ _ => Relation.TransGen.trans⟩
    have : Std.Irrefl r := ⟨fun v => hac v.1⟩
    have : Finite {v // v ∈ nodes} := nodes.finite_toSet
    exact Finite.wellFounded_of_trans_of_irrefl r
  intro v hv
  induction hx : (⟨v, hv⟩ : {v // v ∈ nodes}) using hwf.induction generalizing v with
  | _ x ih =>
    subst hx
    refine step v hv fun u hu => ?_
    exact ih ⟨u, (hedges _ hu).1⟩ (Relation.TransGen.single hu) u (hedges _ hu).1 rfl

/-- **Levels increase along every edge of an acyclic graph.** -/
theorem levels_lt (hnodup : nodes.Nodup) (hedges : ∀ e ∈ edges, e.1 ∈ nodes ∧ e.2 ∈ nodes)
    (hac : ∀ v, ¬ Relation.TransGen (fun u v => (u, v) ∈ edges) v v) (h : (u, v) ∈ edges) :
    levels nodes edges u < levels nodes edges v := by
  have hstart : Inv nodes edges [] [] (start nodes edges) := inv_start hnodup
  obtain ⟨done, hinv, hready⟩ := exists_inv_loop hedges nodes.length hstart (by simp)
  have hall : ∀ w ∈ nodes, w ∈ done := by
    refine induction_of_acyclic hac hedges fun w hw hpred => ?_
    have hdeg : (loop edges nodes.length (start nodes edges)).indeg w = 0 := by
      rw [hinv.indeg, pending_eq_zero.2 hpred]
      rfl
    have := (hinv.free w hw).2 hdeg
    rwa [hready, List.append_nil] at this
  exact (hinv.lt u (hall u (hedges _ h).1) v h).resolve_right (by simp)

/-- A node no edge enters stays at level `0`. -/
theorem levels_eq_zero (hv : ∀ u, (u, v) ∉ edges) : levels nodes edges v = 0 := by
  suffices H : ∀ fuel (s : State α), s.level v = 0 → (loop edges fuel s).level v = 0 from
    H _ _ rfl
  intro fuel
  induction fuel with
  | zero => exact fun s hs => hs
  | succ fuel ih =>
    intro s hs
    cases hr : s.ready with
    | nil => simpa [loop, hr] using hs
    | cons u rest =>
      simp only [loop, hr]
      refine ih _ (foldl_invariant (fun s : State α => s.level v = 0) hs fun w hw c hc => ?_)
      have hne : v ≠ w := fun hvw => hv u (mem_consumers.1 (hvw ▸ hw))
      simp only [relax]
      split
      · rwa [Function.update_of_ne hne]
      · exact hc

end FaultFlow.Lib.Kahn
