/-
# Lists cut into blocks

Cutting a list at given lengths (`List.splitLengths`), and the blocks of equal
key that a sorted list is made of.
-/

import Mathlib.Algebra.GroupWithZero.Nat
import Mathlib.Data.List.SplitLengths
import Mathlib.Order.Defs.LinearOrder

namespace FaultFlow
namespace Lib

variable {α : Type*} {ns : List ℕ} {xs c : List α}

/-- Cutting two lists one after the other. -/
theorem splitLengths_append {ms : List ℕ} {ys : List α} (h : ns.sum = xs.length) :
    (ns ++ ms).splitLengths (xs ++ ys) = ns.splitLengths xs ++ ms.splitLengths ys := by
  induction ns generalizing xs with
  | nil =>
    obtain rfl : xs = [] := List.eq_nil_of_length_eq_zero h.symm
    rfl
  | cons n ns ih =>
    rw [List.sum_cons] at h
    have hn : n ≤ xs.length := by omega
    have hdrop : ns.sum = (xs.drop n).length := by simp only [List.length_drop]; omega
    rw [List.cons_append, List.splitLengths_cons, List.splitLengths_cons,
      List.take_append_of_le_length hn, List.drop_append_of_le_length hn, ih hdrop, List.cons_append]

/-- The pieces of a list are made of its elements. -/
theorem mem_of_mem_splitLengths {x : α} (hc : c ∈ ns.splitLengths xs) (hx : x ∈ c) : x ∈ xs := by
  induction ns generalizing xs with
  | nil => simp at hc
  | cons n ns ih =>
    rw [List.splitLengths_cons, List.mem_cons] at hc
    rcases hc with rfl | hc
    · exact List.mem_of_mem_take hx
    · exact List.mem_of_mem_drop (ih hc)

/-- Pieces that fill blocks lie inside blocks. -/
theorem exists_block_of_mem_splitLengths {parts : List (List ℕ)} {blocks : List (List α)}
    (h : parts.map List.sum = blocks.map List.length)
    (hc : c ∈ parts.flatten.splitLengths blocks.flatten) : ∃ b ∈ blocks, ∀ x ∈ c, x ∈ b := by
  induction parts generalizing blocks with
  | nil => simp at hc
  | cons p ps ih =>
    cases blocks with
    | nil => simp at h
    | cons b bs =>
      simp only [List.map_cons, List.cons.injEq] at h
      rw [List.flatten_cons, List.flatten_cons, splitLengths_append h.1, List.mem_append] at hc
      rcases hc with hc | hc
      · exact ⟨b, List.mem_cons_self, fun x hx => mem_of_mem_splitLengths hc hx⟩
      · obtain ⟨b', hb', hsub⟩ := ih h.2 hc
        exact ⟨b', List.mem_cons_of_mem _ hb', hsub⟩

/-- A list sorted by a key is its elements of the least key, then the others. -/
theorem eq_filter_append_filter {κ : Type} [LinearOrder κ] (key : α → κ) {k : κ}
    (hsorted : xs.Pairwise fun a b => key a ≤ key b) (hmin : ∀ x ∈ xs, k ≤ key x) :
    xs = (xs.filter fun x => key x = k) ++ xs.filter fun x => key x ≠ k := by
  induction xs with
  | nil => rfl
  | cons x xs ih =>
    rw [List.pairwise_cons] at hsorted
    have htail := ih hsorted.2 fun y hy => hmin y (List.mem_cons_of_mem _ hy)
    by_cases hx : key x = k
    · rw [List.filter_cons_of_pos (by simpa using hx), List.filter_cons_of_neg (by simpa using hx),
        List.cons_append, ← htail]
    · -- past the least key there is none of it left
      have hlt : k < key x := lt_of_le_of_ne (hmin x List.mem_cons_self) (Ne.symm hx)
      have hnone : xs.filter (fun y => key y = k) = [] := by
        refine List.filter_eq_nil_iff.2 fun y hy => ?_
        have := hlt.trans_le (hsorted.1 y hy)
        simpa using this.ne'
      rw [hnone, List.nil_append] at htail
      rw [List.filter_cons_of_neg (by simpa using hx), List.filter_cons_of_pos (by simpa using hx),
        hnone, List.nil_append, ← htail]

/-- A list sorted by a key is its blocks of equal key, in the order of the keys. -/
theorem eq_flatten_blocks {κ : Type} [LinearOrder κ] (key : α → κ) {keys : List κ}
    (hkeys : keys.Pairwise (· < ·)) (hmem : ∀ x ∈ xs, key x ∈ keys)
    (hsorted : xs.Pairwise fun a b => key a ≤ key b) :
    xs = (keys.map fun k => xs.filter fun x => key x = k).flatten := by
  induction keys generalizing xs with
  | nil =>
    cases xs with
    | nil => rfl
    | cons x xs => simpa using hmem x List.mem_cons_self
  | cons k keys ih =>
    rw [List.pairwise_cons] at hkeys
    have hmin : ∀ x ∈ xs, k ≤ key x := fun x hx =>
      (List.mem_cons.1 (hmem x hx)).elim (fun h => h.ge) fun h => (hkeys.1 _ h).le
    have hothers : ∀ x ∈ xs.filter fun x => key x ≠ k, key x ∈ keys := by
      intro x hx
      obtain ⟨hx, hne⟩ := List.mem_filter.1 hx
      exact (List.mem_cons.1 (hmem x hx)).resolve_left (by simpa using hne)
    have hrest := ih hkeys.2 hothers (hsorted.filter _)
    have hblocks : ∀ k' ∈ keys, ((xs.filter fun x => key x ≠ k).filter fun x => key x = k') =
        xs.filter fun x => key x = k' := by
      intro k' hk'
      rw [List.filter_filter]
      refine List.filter_congr fun x _ => ?_
      have : key x = k' → key x ≠ k := fun h => h ▸ (hkeys.1 k' hk').ne'
      grind
    rw [List.map_congr_left hblocks] at hrest
    rw [List.map_cons, List.flatten_cons, ← hrest]
    exact eq_filter_append_filter key hsorted hmin

end Lib
end FaultFlow
