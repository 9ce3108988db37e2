/-
# Counting in two ways

A list counted by several predicates: adding up the counts of the predicates is adding up,
over the elements, how many predicates hold.  If at least one holds everywhere, the sum is the
length of the list exactly if no element is counted twice.
-/

import Mathlib.Algebra.BigOperators.Group.List.Basic
import Mathlib.Algebra.Order.BigOperators.Group.List
import Mathlib.Algebra.Order.Ring.Nat

namespace FaultFlow

namespace Lib

variable {α : Type*}

theorem sum_map_ite (p : α → Bool) (l : List α) :
    (l.map fun a => if p a = true then 1 else 0).sum = l.countP p := by
  induction l with
  | nil => rfl
  | cons a l ih => rw [List.map_cons, List.sum_cons, ih, List.countP_cons, add_comm]

/-- **Counting in two ways.** -/
theorem sum_map_countP (preds : List (α → Bool)) (l : List α) :
    (preds.map fun p => l.countP p).sum = (l.map fun a => preds.countP (· a)).sum := by
  induction l with
  | nil => simp
  | cons a l ih =>
    simp only [List.countP_cons, List.sum_map_add, ih, sum_map_ite, List.map_cons, List.sum_cons]
    exact add_comm _ _

/-- **Nothing is counted twice** if everything is counted and the sum is the length. -/
theorem sum_map_eq_length_iff {f : α → ℕ} {l : List α} (h : ∀ a ∈ l, 1 ≤ f a) :
    (l.map f).sum = l.length ↔ ∀ a ∈ l, f a = 1 := by
  induction l with
  | nil => simp
  | cons a l ih =>
    have ha : 1 ≤ f a := h a List.mem_cons_self
    have hl : ∀ b ∈ l, 1 ≤ f b := fun b hb => h b (List.mem_cons_of_mem a hb)
    have hle : l.length ≤ (l.map f).sum := by
      simpa using List.card_nsmul_le_sum (l.map f) 1 (by simpa using hl)
    rw [List.forall_mem_cons, ← ih hl, List.map_cons, List.sum_cons, List.length_cons]
    omega

end Lib

end FaultFlow
