/-
# Maps and sets with lawful keys

`TreeMap.eraseMany` over a list is one `erase` after the other, so a key that is in the list is
gone and the others are as they were.  Keys that compare equal are equal, so that insertion adds
one element to a set (`mem_insert_iff`).
-/

import Std.Data.TreeMap.Lemmas
import Std.Data.TreeSet.Lemmas
import Mathlib.Tactic.TypeStar

namespace FaultFlow

namespace Lib

open Std (TreeMap TreeSet TransOrd LawfulEqOrd)
open Std.DTreeMap.Internal (Impl)

section Internal

variable {α : Type*} {β : α → Type*} [Ord α]

/-- A balanced tree without a key. -/
def eraseBalanced (t : { t : Impl α β // t.Balanced }) (a : α) : { t : Impl α β // t.Balanced } :=
  ⟨(t.1.erase a t.2).impl, (t.1.erase a t.2).balanced_impl⟩

theorem val_eraseMany (t : Impl α β) (h : t.Balanced) (l : List α) :
    (t.eraseMany l h).val = (l.foldl eraseBalanced ⟨t, h⟩).val := by
  -- the loop carries more than the tree, which changes nothing
  have key : ∀ (l : List α) (r : t.IteratedErasureFrom) (hr : r.val.Balanced),
      (l.foldl (fun (r : t.IteratedErasureFrom) a =>
        (⟨(r.val.erase a (r.2 h fun t'' a h _ => (t''.erase a h).balanced_impl)).impl,
          fun h₀ h₁ => h₁ _ _ _ (r.2 h₀ h₁)⟩ : t.IteratedErasureFrom)) r).val =
        (l.foldl eraseBalanced ⟨r.val, hr⟩).val := by
    intro l
    induction l with
    | nil => intro r hr; rfl
    | cons a l ih => exact fun r hr => ih _ (r.val.erase a hr).balanced_impl
  unfold Impl.eraseMany
  simp only [bind_pure, List.forIn_pure_yield_eq_foldl]
  exact key l ⟨t, fun h _ => h⟩ h

end Internal

variable {α γ : Type*} [Ord α]

theorem eraseMany_eq_foldl (m : TreeMap α γ) (l : List α) :
    m.eraseMany l = l.foldl (fun m a => m.erase a) m := by
  have key : ∀ (l : List α) (m : TreeMap α γ),
      (l.foldl eraseBalanced ⟨m.inner.inner, m.inner.wf.balanced⟩).val =
        (l.foldl (fun m a => m.erase a) m).inner.inner := by
    intro l
    induction l with
    | nil => intro m; rfl
    | cons a l ih => exact fun m => ih (m.erase a)
  have hval := (val_eraseMany m.inner.inner m.inner.wf.balanced l).trans (key l m)
  cases hm : l.foldl (fun m a => m.erase a) m with
  | mk inner =>
    rw [hm] at hval
    obtain ⟨impl, wf⟩ := inner
    exact congrArg TreeMap.mk (by unfold Std.DTreeMap.eraseMany; congr)

/-- **What is erased is gone, and the rest is kept.** -/
theorem getElem?_eraseMany [TransOrd α] [LawfulEqOrd α] [DecidableEq α] (m : TreeMap α γ)
    (l : List α) (k : α) : (m.eraseMany l)[k]? = if k ∈ l then none else m[k]? := by
  rw [eraseMany_eq_foldl]
  induction l generalizing m with
  | nil => rfl
  | cons a l ih =>
    rw [List.foldl_cons, ih, TreeMap.getElem?_erase]
    by_cases hk : k ∈ l
    · simp [hk]
    · by_cases ha : a = k
      · simp [hk, ha]
      · have hka : ¬ k = a := fun h => ha h.symm
        simp [hk, hka, ha]

theorem mem_insert_iff [TransOrd α] [LawfulEqOrd α] {s : TreeSet α} {a b : α} :
    b ∈ s.insert a ↔ a = b ∨ b ∈ s := by
  rw [TreeSet.mem_insert, Std.LawfulEqCmp.compare_eq_iff_eq]

end Lib

end FaultFlow
