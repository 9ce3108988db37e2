/-
# Shift registers

A register holds a value at each position.  A shift puts a new value at position `0` and
moves every other one up by one, so after some shifts a position below their number holds
the value that was fed that many shifts before the last one (`foldl_shiftIn`), and what
leaves the end of the register leaves it in the order of descending positions.
-/

import Mathlib.Data.List.Basic
import Mathlib.Tactic.Cases

namespace FaultFlow.Lib

variable {α : Type*}

/-- One shift. -/
def shiftIn (s : ℕ → α) (b : α) : ℕ → α
  | 0 => b
  | p + 1 => s p

@[simp]
theorem shiftIn_zero (s : ℕ → α) (b : α) : shiftIn s b 0 = b := rfl

@[simp]
theorem shiftIn_succ (s : ℕ → α) (b : α) (p : ℕ) : shiftIn s b (p + 1) = s p := rfl

/-- **The register after some shifts**: the last values that were fed, then the old ones. -/
theorem foldl_shiftIn (bits : List α) (s : ℕ → α) (p : ℕ) :
    bits.foldl shiftIn s p = (bits.reverse[p]?).getD (s (p - bits.length)) := by
  induction bits generalizing s with
  | nil => simp
  | cons b bits ih =>
    rw [List.foldl_cons, ih, List.reverse_cons, List.getElem?_append]
    rcases Nat.lt_trichotomy p bits.length with h | rfl | h
    · rw [if_pos (by simpa using h), List.getElem?_eq_getElem (by simpa using h)]
      rfl
    · simp
    · obtain ⟨k, rfl⟩ := Nat.exists_eq_add_of_lt h
      have hk : bits.length + k + 1 - bits.length = k + 1 := by omega
      have hk' : bits.length + k + 1 - (b :: bits).length = k := by
        rw [List.length_cons]
        omega
      rw [if_neg (by simp; omega), List.getElem?_eq_none (by simp; omega), hk, hk',
        List.length_reverse, hk, List.getElem?_cons_succ]
      rfl

/-- A position below the number of shifts holds a value that was fed. -/
theorem foldl_shiftIn_of_lt {bits : List α} {p : ℕ} (hp : p < bits.length) (s : ℕ → α) (d : α) :
    bits.foldl shiftIn s p = bits.getD (bits.length - 1 - p) d := by
  rw [foldl_shiftIn, List.getElem?_reverse hp, List.getD_eq_getElem?_getD,
    List.getElem?_eq_getElem (by omega)]
  rfl

end FaultFlow.Lib
