/-
# A list cut at increasing positions

The pieces of a list between one bound and the next make up the list between the first bound
and the last (`flatMap_extract`), so a loop over pieces is a loop over the list.  Two cuts are
used: pieces of a fixed length (`cut`), and `n` pieces shared among `k` workers, the first of
which take one more when `k` does not divide `n` (`share`).
-/

import Mathlib.Data.List.Basic
import Mathlib.Data.Nat.Init
import Mathlib.Order.Monotone.Basic

namespace FaultFlow.Lib

variable {α β : Type*}

/-- Two adjoining ranges of a list are one. -/
theorem extract_append_extract (l : List α) {a b c : ℕ} (hab : a ≤ b) (hbc : b ≤ c) :
    l.extract a b ++ l.extract b c = l.extract a c := by
  have hb : b = a + (b - a) := by omega
  have hc : c - a = (b - a) + (c - b) := by omega
  rw [List.extract_eq_take_drop, List.extract_eq_take_drop, List.extract_eq_take_drop, hc,
    List.take_add, List.drop_drop, ← hb]

/-- A range of `0, …, n - 1`. -/
theorem extract_range {n a b : ℕ} (h : b ≤ n) :
    (List.range n).extract a b = List.range' a (b - a) := by
  rw [List.extract_eq_take_drop]
  refine List.ext_getElem (by simp; omega) fun i _ _ => ?_
  simp

/-- **The pieces between consecutive bounds make up the whole.** -/
theorem flatMap_extract (l : List α) {f : ℕ → ℕ} (hf : Monotone f) (n : ℕ) :
    ((List.range n).flatMap fun t => l.extract (f t) (f (t + 1))) = l.extract (f 0) (f n) := by
  induction n with
  | zero => simp
  | succ n ih =>
    rw [List.range_succ, List.flatMap_append, ih, List.flatMap_singleton,
      extract_append_extract l (hf (Nat.zero_le n)) (hf (Nat.le_succ n))]

/-- The bound of piece `t` when a span from `a` to `z` is cut in pieces of length `w`. -/
def cut (w a z t : ℕ) : ℕ := min (a + t * w) z

/-- The cuts are in order. -/
theorem cut_monotone (w a z : ℕ) : Monotone (cut w a z) := by
  intro t t' h
  have := Nat.mul_le_mul_right w h
  simp only [cut]
  omega

/-- The first cut is the start. -/
theorem cut_zero {a z : ℕ} (w : ℕ) (h : a ≤ z) : cut w a z 0 = a := by
  simp [cut, h]

/-- The last cut is the end, with the count of blocks rounded up. -/
theorem cut_last {w : ℕ} (hw : 0 < w) (a z : ℕ) : cut w a z ((z - a + w - 1) / w) = z := by
  have h := Nat.div_add_mod (z - a + w - 1) w
  have hmod := Nat.mod_lt (z - a + w - 1) hw
  rw [Nat.mul_comm] at h
  simp only [cut]
  omega

/-- **A span is made of its pieces of length `w`**, the last of which may be shorter. -/
theorem flatMap_pieces (l : List α) {w : ℕ} (hw : 0 < w) {a z : ℕ} (h : a ≤ z) :
    ((List.range ((z - a + w - 1) / w)).flatMap fun k =>
      l.extract (a + k * w) (min (a + k * w + w) z)) = l.extract a z := by
  have hcut := flatMap_extract l (cut_monotone w a z) ((z - a + w - 1) / w)
  rw [cut_zero _ h, cut_last hw] at hcut
  rw [← hcut]
  refine List.flatMap_congr fun k hk => ?_
  -- a piece starts before the end of the span
  have hstart : a + k * w ≤ z := by
    have hk' : (k + 1) * w ≤ z - a + w - 1 := (Nat.le_div_iff_mul_le hw).1 (List.mem_range.1 hk)
    rw [Nat.add_mul, Nat.one_mul] at hk'
    omega
  simp only [cut, Nat.min_eq_left hstart, Nat.add_mul, Nat.one_mul, Nat.add_assoc]

/-- Where worker `t` of `k` starts when `n` pieces are shared. -/
def share (n k t : ℕ) : ℕ := t * (n / k) + min t (n % k)

/-- A share has `n / k` members, one more if it is among the first `n % k`. -/
theorem share_succ (n k t : ℕ) :
    share n k (t + 1) = share n k t + n / k + if t < n % k then 1 else 0 := by
  have h : (t + 1) * (n / k) = t * (n / k) + n / k := Nat.succ_mul ..
  simp only [share]
  split <;> omega

/-- The shares are in order. -/
theorem share_monotone (n k : ℕ) : Monotone (share n k) :=
  monotone_nat_of_le_succ fun t => by rw [share_succ, Nat.add_assoc]; exact Nat.le_add_right _ _

/-- The first share begins at `0`. -/
theorem share_zero (n k : ℕ) : share n k 0 = 0 := by simp [share]

/-- The last share ends at `n`. -/
theorem share_last {k : ℕ} (hk : 0 < k) (n : ℕ) : share n k k = n := by
  have h := Nat.div_add_mod n k
  have hmod := Nat.mod_lt n hk
  simp only [share]
  omega

/-- Filtering by a property of what is read off the elements. -/
theorem map_filter_eq_filter_map {p : α → Bool} {q : β → Bool} {f : α → β} {l : List α}
    (h : ∀ a ∈ l, p a = q (f a)) : (l.filter p).map f = (l.map f).filter q := by
  rw [List.filter_map]
  exact congrArg (List.map f) (List.filter_congr h)

end FaultFlow.Lib
