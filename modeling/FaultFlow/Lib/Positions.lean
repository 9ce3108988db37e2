/-
# Positions in a sorted list

What stands before position `k` of a sorted list is what the order puts before
the element at `k` (`mem_take_iff`).  A loop that visits consecutive spans
visits a whole range (`flatMap_spans`).
-/

import Mathlib.Data.List.Sort
import Mathlib.Tactic.Common

namespace FaultFlow.Lib

variable {α : Type*}

/-- **Before position `k` stands what the order puts before the element there.** -/
theorem mem_take_iff {r : α → α → Prop} {l : List α}
    (hanti : ∀ a ∈ l, ∀ b ∈ l, r a b → r b a → a = b) (hs : l.Pairwise r) (hnd : l.Nodup)
    {k : ℕ} {x y : α} (hk : l[k]? = some y) : x ∈ l.take k ↔ x ∈ l ∧ r x y ∧ x ≠ y := by
  obtain ⟨hlt, hy⟩ := List.getElem?_eq_some_iff.1 hk
  have hsplit : l = l.take k ++ y :: l.drop (k + 1) := by
    rw [← hy, ← List.drop_eq_getElem_cons hlt, List.take_append_drop]
  constructor
  · intro hx
    rw [hsplit, List.pairwise_append] at hs
    rw [hsplit, List.nodup_append] at hnd
    exact ⟨List.mem_of_mem_take hx, hs.2.2 x hx y (by simp), hnd.2.2 x hx y (by simp)⟩
  · rintro ⟨hx, hxy, hne⟩
    have hmem := hx
    rw [hsplit] at hx hs
    rcases List.mem_append.1 hx with hx | hx
    · exact hx
    · rcases List.mem_cons.1 hx with hx | hx
      · exact absurd hx hne
      · rw [List.pairwise_append, List.pairwise_cons] at hs
        exact absurd (hanti x hmem y (List.mem_of_getElem? hk) hxy (hs.2.1.1 x hx)) hne

/-- A list read at every index is the list. -/
theorem filterMap_getElem?_range' (l : List α) :
    (List.range' 0 l.length).filterMap (fun i => l[i]?) = l := by
  have hmap : (List.range' 0 l.length).map (fun i => l[i]?) = l.map some := by
    refine List.ext_getElem (by simp) fun i h1 h2 => ?_
    simp only [List.length_map] at h2
    simp [h2]
  calc (List.range' 0 l.length).filterMap (fun i => l[i]?)
      = ((List.range' 0 l.length).map fun i => l[i]?).filterMap id := by
        rw [List.filterMap_map]
        rfl
    _ = l := by
        rw [hmap, List.filterMap_map]
        simp

/-- The spans between consecutive bounds, from `a` up to `z`, make up a range. -/
theorem flatMap_spans (bounds : List ℕ) (a z : ℕ) (h : (a :: bounds ++ [z]).Pairwise (· ≤ ·)) :
    ((a :: bounds ++ [z]).zip (bounds ++ [z])).flatMap (fun p => List.range' p.1 (p.2 - p.1)) =
      List.range' a (z - a) := by
  induction bounds generalizing a with
  | nil => simp
  | cons b bounds ih =>
    simp only [List.cons_append, List.zip_cons_cons, List.flatMap_cons] at ih ⊢
    have hab : a ≤ b := by
      rw [List.cons_append, List.pairwise_cons] at h
      exact h.1 b (by simp)
    have hbz : b ≤ z := by
      rw [List.cons_append, List.cons_append, List.pairwise_cons, List.pairwise_cons] at h
      exact h.2.1 z (by simp)
    rw [ih b (List.Pairwise.of_cons h)]
    have : List.range' a (b - a) ++ List.range' (a + (b - a)) (z - b) =
        List.range' a (b - a + (z - b)) := List.range'_append_1
    rw [show a + (b - a) = b by omega, show b - a + (z - b) = z - a by omega] at this
    exact this

end FaultFlow.Lib
