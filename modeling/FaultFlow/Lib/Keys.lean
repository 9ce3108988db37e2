/-
# Keys made of fields

A key joins its fields with a separator character.  It can be read back from the
left as long as the first field is free of the separator (`append_sep_inj`), and
from the right as long as the last one is (`append_sep_inj_right`).  Decimal
numbers are free of every character that is neither a digit nor the sign.
-/

import Mathlib.Data.List.Basic
import Mathlib.Data.Int.Notation
import Std.Data.String.ToInt

namespace FaultFlow.Lib

variable {α : Type*}

/-- The first separator ends the first field. -/
theorem append_sep_inj {c : α} {u v r t : List α} (hu : c ∉ u) (hv : c ∉ v)
    (h : u ++ c :: r = v ++ c :: t) : u = v ∧ r = t := by
  induction u generalizing v with
  | nil =>
    cases v with
    | nil => exact ⟨rfl, (List.cons.inj h).2⟩
    | cons b v => exact absurd (by rw [(List.cons.inj h).1]; exact .head _) hv
  | cons a u ih =>
    cases v with
    | nil => exact absurd (by rw [(List.cons.inj h).1]; exact .head _) hu
    | cons b v =>
      obtain ⟨rfl, htail⟩ := List.cons.inj h
      obtain ⟨rfl, rfl⟩ := ih (fun hc => hu (.tail _ hc)) (fun hc => hv (.tail _ hc)) htail
      exact ⟨rfl, rfl⟩

/-- The last separator starts the last field. -/
theorem append_sep_inj_right {c : α} {u v r t : List α} (hr : c ∉ r) (ht : c ∉ t)
    (h : u ++ c :: r = v ++ c :: t) : u = v ∧ r = t := by
  have hrev := congrArg List.reverse h
  simp only [List.reverse_append, List.reverse_cons, List.append_assoc, List.singleton_append] at hrev
  obtain ⟨h1, h2⟩ := append_sep_inj (by simpa using hr) (by simpa using ht) hrev
  exact ⟨List.reverse_inj.1 h2, List.reverse_inj.1 h1⟩

theorem nat_toString_digits {n : ℕ} {c : Char} (h : c ∈ (toString n).toList) : c.isDigit = true := by
  rw [Nat.toString_eq_repr, Nat.toList_repr] at h
  exact Nat.isDigit_of_mem_toDigits (by decide) (by decide) h

/-- The characters of a decimal number. -/
theorem int_toString_chars {z : ℤ} {c : Char} (h : c ∈ (toString z).toList) :
    c.isDigit = true ∨ c = '-' := by
  cases z with
  | ofNat n => exact .inl (nat_toString_digits h)
  | negSucc n =>
    have hneg : (toString (Int.negSucc n)).toList = '-' :: (toString (n + 1)).toList :=
      String.toList_append
    rw [hneg] at h
    rcases List.mem_cons.1 h with rfl | h
    · exact .inr rfl
    · exact .inl (nat_toString_digits h)

end FaultFlow.Lib
