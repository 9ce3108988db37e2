/-
# Splitting numbers into parts

Even splits of a number, partial sums, and how few parts of a bounded size a
number takes.
-/

import Mathlib.Algebra.BigOperators.Group.List.Lemmas
import Mathlib.Algebra.Order.BigOperators.Group.List
import Mathlib.Algebra.Order.Ring.Nat

namespace FaultFlow
namespace Lib

/-- `n` in `k` parts, the larger ones first and no two further apart than one. -/
def evenParts (n k : ℕ) : List ℕ :=
  (List.range k).map fun i => n / k + if i < n % k then 1 else 0

/-- There are `k` parts. -/
@[simp]
theorem length_evenParts (n k : ℕ) : (evenParts n k).length = k := by
  simp [evenParts]

/-- The number of indices below `r`. -/
theorem sum_indicator_lt (r k : ℕ) :
    ((List.range k).map fun i => if i < r then 1 else 0).sum = min k r := by
  induction k with
  | zero => simp
  | succ k ih =>
    rw [List.range_succ, List.map_append, List.sum_append, ih]
    simp only [List.map_cons, List.map_nil, List.sum_cons, List.sum_nil]
    split_ifs <;> omega

variable {k n L acc y : ℕ} {xs ys : List ℕ}

/-- **The parts add up.** -/
theorem sum_evenParts (n : ℕ) (hk : 0 < k) : (evenParts n k).sum = n := by
  have hmod : min k (n % k) = n % k := min_eq_right (Nat.mod_lt n hk).le
  rw [evenParts, List.sum_map_add, sum_indicator_lt, hmod]
  simp [Nat.div_add_mod]

/-- No part is empty if there are enough items. -/
theorem evenParts_pos (hk : k ≤ n) : ∀ m ∈ evenParts n k, 0 < m := by
  intro m hm
  obtain ⟨i, hi, rfl⟩ := List.mem_map.1 hm
  have : 0 < n / k := Nat.div_pos hk (by have := List.mem_range.1 hi; omega)
  omega

/-- An even split is no coarser than the average allows. -/
theorem evenParts_le (h : n ≤ k * L) : ∀ m ∈ evenParts n k, m ≤ L := by
  intro m hm
  obtain ⟨i, hi, rfl⟩ := List.mem_map.1 hm
  have hk : 0 < k := by have := List.mem_range.1 hi; omega
  have hdiv : k * (n / k) + n % k = n := Nat.div_add_mod n k
  have hle : n / k ≤ L := by
    rw [Nat.div_le_iff_le_mul_add_pred hk]
    omega
  split_ifs with hmod
  · -- a remainder leaves room for one more
    have : n / k ≠ L := by
      rintro rfl
      omega
    omega
  · simpa using hle

/-- Parts of at most `L` cover at most `L` each. -/
theorem sum_le_length_mul {parts : List ℕ} (h : ∀ m ∈ parts, m ≤ L) :
    parts.sum ≤ parts.length * L := by
  simpa using List.sum_le_card_nsmul parts L h

/-- One more at a position is one more in the sum. -/
theorem sum_modify_succ {w : ℕ} (hw : w < xs.length) : (xs.modify w (· + 1)).sum = xs.sum + 1 := by
  induction xs generalizing w with
  | nil => simp at hw
  | cons x xs ih =>
    cases w with
    | zero => simp [Nat.add_right_comm]
    | succ w =>
      simp only [List.length_cons, Nat.add_lt_add_iff_right] at hw
      simp [ih hw, Nat.add_assoc]

/-- Sums are monotone, position by position. -/
theorem sum_le_sum_of_getD (h : ∀ d, xs.getD d 0 ≤ ys.getD d 0) : xs.sum ≤ ys.sum := by
  induction xs generalizing ys with
  | nil => simp
  | cons x xs ih =>
    cases ys with
    | nil =>
      have hx := h 0
      have hxs : xs.sum ≤ [].sum := ih fun d => by simpa using h (d + 1)
      simp_all
    | cons y ys =>
      have hx := h 0
      have hxs := ih fun d => by simpa using h (d + 1)
      simp only [List.getD_cons_zero] at hx
      simp only [List.sum_cons]
      omega

/-- Of two lists, one below the other, the lower sum is less unless they agree. -/
theorem getD_eq_of_sum_le (h : ∀ d, xs.getD d 0 ≤ ys.getD d 0) (hsum : ys.sum ≤ xs.sum) (d : ℕ) :
    xs.getD d 0 = ys.getD d 0 := by
  induction xs generalizing ys d with
  | nil =>
    have hmem : ∀ y ∈ ys, y = 0 := List.sum_eq_zero_iff.1 (by simpa using hsum)
    rw [List.getD_eq_getElem?_getD (l := ys)]
    cases hd : ys[d]? with
    | none => simp
    | some y => simp [hmem y (List.mem_of_getElem? hd)]
  | cons x xs ih =>
    cases ys with
    | nil => exact Nat.le_antisymm (h d) (by simp)
    | cons y ys =>
      have hx : x ≤ y := by simpa using h 0
      have htail : ∀ d, xs.getD d 0 ≤ ys.getD d 0 := fun d => by simpa using h (d + 1)
      have hle := sum_le_sum_of_getD htail
      simp only [List.sum_cons] at hsum
      cases d with
      | zero => simpa using (by omega : x = y)
      | succ d => simpa using ih htail (by omega) d

/-- The partial sums of a list, from `acc` on. -/
def accumulate : ℕ → List ℕ → List ℕ
  | _, [] => []
  | acc, x :: xs => (acc + x) :: accumulate (acc + x) xs

/-- The second part goes on where the first ends. -/
theorem accumulate_append (acc : ℕ) (xs ys : List ℕ) :
    accumulate acc (xs ++ ys) = accumulate acc xs ++ accumulate (acc + xs.sum) ys := by
  induction xs generalizing acc with
  | nil => simp [accumulate]
  | cons x xs ih => simp [accumulate, ih, Nat.add_assoc]

/-- A partial sum cuts the list. -/
theorem exists_cut_of_mem_accumulate (h : y ∈ accumulate acc xs) :
    ∃ as bs, xs = as ++ bs ∧ acc + as.sum = y := by
  induction xs generalizing acc with
  | nil => cases h
  | cons x xs ih =>
    rcases List.mem_cons.1 h with rfl | h
    · exact ⟨[x], xs, rfl, by simp⟩
    · obtain ⟨as, bs, rfl, hsum⟩ := ih h
      exact ⟨x :: as, bs, rfl, by simp [← hsum, Nat.add_assoc]⟩

/-- No partial sum exceeds the total. -/
theorem le_of_mem_accumulate (h : y ∈ accumulate acc xs) : y ≤ acc + xs.sum := by
  obtain ⟨as, bs, rfl, rfl⟩ := exists_cut_of_mem_accumulate h
  rw [List.sum_append]
  omega

/-- With positive terms every partial sum is above the start. -/
theorem lt_of_mem_accumulate (hpos : ∀ x ∈ xs, 0 < x) (h : y ∈ accumulate acc xs) : acc < y := by
  induction xs generalizing acc with
  | nil => cases h
  | cons x xs ih =>
    have hx := hpos x List.mem_cons_self
    rcases List.mem_cons.1 h with rfl | h
    · omega
    · have := ih (fun z hz => hpos z (List.mem_cons_of_mem _ hz)) h
      omega

/-- A split whose partial sums meet every partial sum of `sizes` is a split of
each of the `sizes`. -/
theorem exists_parts_of_accumulate {sizes lengths : List ℕ} (acc : ℕ) (hsizes : ∀ n ∈ sizes, 0 < n)
    (hlengths : ∀ l ∈ lengths, 0 < l) (hsum : lengths.sum = sizes.sum)
    (hends : ∀ y ∈ accumulate acc sizes, y ∈ accumulate acc lengths) :
    ∃ parts : List (List ℕ), parts.flatten = lengths ∧ parts.map List.sum = sizes := by
  induction sizes generalizing acc lengths with
  | nil =>
    cases lengths with
    | nil => exact ⟨[], rfl, rfl⟩
    | cons l ls =>
      have := hlengths l List.mem_cons_self
      simp only [List.sum_cons, List.sum_nil] at hsum
      omega
  | cons n ns ih =>
    obtain ⟨as, bs, rfl, hcut⟩ := exists_cut_of_mem_accumulate (hends (acc + n) List.mem_cons_self)
    have has : as.sum = n := by omega
    have htail : ∀ y ∈ accumulate (acc + n) ns, y ∈ accumulate (acc + n) bs := by
      intro y hy
      have hlt := lt_of_mem_accumulate (fun z hz => hsizes z (List.mem_cons_of_mem _ hz)) hy
      have hmem := hends y (List.mem_cons_of_mem _ hy)
      rw [accumulate_append, List.mem_append, has] at hmem
      rcases hmem with h | h
      · have := le_of_mem_accumulate h
        omega
      · exact h
    obtain ⟨parts, hflat, hparts⟩ := ih (acc + n)
      (fun z hz => hsizes z (List.mem_cons_of_mem _ hz))
      (fun z hz => hlengths z (List.mem_append_right _ hz))
      (by simp only [List.sum_append, List.sum_cons] at hsum; omega) htail
    exact ⟨as :: parts, by simp [hflat], by simp [has, hparts]⟩

end Lib
end FaultFlow
