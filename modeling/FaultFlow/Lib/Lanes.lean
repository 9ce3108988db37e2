/-
# Sixty-four machines in one word

A bit-parallel simulator keeps one Boolean per machine in the bits of a word.
Bitwise operations act on every bit alone, so a computation made of them is
sixty-four copies of one Boolean computation.  This file reads a word lane by
lane: `lane` distributes over the bitwise operations, `broadcast` gives every
lane the same value, `laneMask` selects one lane, and `differs` marks the lanes
that disagree with lane `0`.
-/

import Mathlib.Tactic.Common
import Mathlib.Data.Nat.Notation

namespace FaultFlow.Lib

/-- One bit for each of 64 machines. -/
abbrev Word := BitVec 64

/-- The value a word holds for machine `i`. -/
def lane (i : ℕ) (w : Word) : Bool := w.getLsbD i

/-- Conjunction acts lane by lane. -/
@[simp]
theorem lane_and (i : ℕ) (w w' : Word) : lane i (w &&& w') = (lane i w && lane i w') := by
  simp [lane]

/-- So does disjunction. -/
@[simp]
theorem lane_or (i : ℕ) (w w' : Word) : lane i (w ||| w') = (lane i w || lane i w') := by
  simp [lane]

/-- So does exclusive or. -/
@[simp]
theorem lane_xor (i : ℕ) (w w' : Word) : lane i (w ^^^ w') = (lane i w ^^ lane i w') := by
  simp [lane]

/-- The zero word is `false` in every lane. -/
@[simp]
theorem lane_zero (i : ℕ) : lane i 0#64 = false := by
  simp [lane]

/-- Complement acts in the lanes of the word. -/
theorem lane_not {i : ℕ} (hi : i < 64) (w : Word) : lane i (~~~w) = !lane i w := by
  simp [lane, hi]

/-- The word of ones is `true` in every lane. -/
theorem lane_allOnes {i : ℕ} (hi : i < 64) : lane i (BitVec.allOnes 64) = true := by
  rw [lane, BitVec.getLsbD_allOnes, decide_eq_true hi]

/-- The word whose lanes all hold `b`. -/
def broadcast (b : Bool) : Word := if b then BitVec.allOnes 64 else 0#64

/-- A broadcast bit is in every lane. -/
theorem lane_broadcast {i : ℕ} (hi : i < 64) (b : Bool) : lane i (broadcast b) = b := by
  cases b
  · exact lane_zero i
  · exact lane_allOnes hi

/-- The word whose only lane set is `i`. -/
def laneMask (i : ℕ) : Word := 1#64 <<< i

/-- The mask of a lane is that lane. -/
theorem lane_laneMask {i j : ℕ} (hj : j < 64) : lane j (laneMask i) = decide (j = i) := by
  rw [lane, laneMask, BitVec.getLsbD_shiftLeft, BitVec.getLsbD_one, Bool.eq_iff_iff]
  simp only [Bool.and_eq_true, Bool.not_eq_true', decide_eq_true_eq, decide_eq_false_iff_not]
  omega

/-- The lanes in which a word differs from its own lane `0`. -/
def differs (w : Word) : Word := w ^^^ broadcast (lane 0 w)

/-- A lane differs if its bit is not that of lane `0`. -/
theorem lane_differs {i : ℕ} (hi : i < 64) (w : Word) :
    lane i (differs w) = (lane i w ^^ lane 0 w) := by
  rw [differs, lane_xor, lane_broadcast hi]

/-- A word that has some lane of a one-lane mask set is not zero. -/
theorem laneMask_and_ne_zero {i : ℕ} (hi : i < 64) (w : Word) :
    w &&& laneMask i ≠ 0#64 ↔ lane i w = true := by
  constructor
  · intro h
    by_contra hw
    refine h (BitVec.eq_of_getLsbD_eq fun j hj => ?_)
    have hj' := lane_laneMask (i := i) hj
    rw [BitVec.getLsbD_and]
    by_cases hji : j = i
    · subst hji
      rw [lane, Bool.not_eq_true] at hw
      simp [hw]
    · rw [lane, decide_eq_false hji] at hj'
      simp [hj']
  · intro h h0
    have : lane i (w &&& laneMask i) = true := by
      rw [lane_and, h, lane_laneMask hi]
      simp
    rw [h0, lane_zero] at this
    exact Bool.false_ne_true this

end FaultFlow.Lib
