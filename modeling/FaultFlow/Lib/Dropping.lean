/-
# Tests over a list from which hits are dropped

Tests run one after the other over a list of items.  A test reports the items it hits, with its
own number, and they are dropped before the next test.  So an item is reported with the first
test that hits it (`reports_run`), and what is left was hit by none (`remaining_run`).
-/

import Mathlib.Data.List.Basic
import Mathlib.Data.List.Induction

namespace FaultFlow.Lib

variable {α τ : Type*}

/-- A loop over a range of which one turn does something. -/
theorem flatMap_range_single {f : ℕ → List α} {n k : ℕ} (hk : k < n) (h : ∀ j, j ≠ k → f j = []) :
    (List.range n).flatMap f = f k := by
  induction n with
  | zero => omega
  | succ n ih =>
    rw [List.range_succ, List.flatMap_append, List.flatMap_singleton]
    by_cases hkn : k = n
    · subst hkn
      have hbefore : (List.range k).flatMap f = [] :=
        List.flatMap_eq_nil_iff.2 fun j hj => h j (by have := List.mem_range.1 hj; omega)
      rw [hbefore, List.nil_append]
    · rw [ih (by omega), h n (Ne.symm hkn), List.append_nil]

/-- The items not hit so far, and those hit, each with the number of its test. -/
structure Dropping (α : Type*) where
  remaining : List α
  reports : List (α × ℕ) := []

namespace Dropping

variable (hits : τ → α → Bool)

/-- One test, with its number. -/
def step (s : Dropping α) (p : τ × ℕ) : Dropping α where
  remaining := s.remaining.filter fun a => !hits p.1 a
  reports := s.reports ++ (s.remaining.filter (hits p.1)).map fun a => (a, p.2)

/-- All tests. -/
def run (tests : List τ) (items : List α) : Dropping α :=
  tests.zipIdx.foldl (step hits) { remaining := items }

theorem run_concat (tests : List τ) (test : τ) (items : List α) :
    run hits (tests ++ [test]) items = step hits (run hits tests items) (test, tests.length) := by
  simp [run, List.zipIdx_append]

theorem remaining_run (tests : List τ) (items : List α) :
    (run hits tests items).remaining =
      items.filter fun a => (tests.findIdx? fun test => hits test a).isNone := by
  induction tests using List.reverseRecOn with
  | nil => exact (List.filter_eq_self.2 fun _ _ => rfl).symm
  | append_singleton tests test ih =>
    rw [run_concat, step, ih, List.filter_filter]
    refine List.filter_congr fun a _ => ?_
    rw [List.findIdx?_append]
    cases tests.findIdx? fun test => hits test a <;> cases h : hits test a <;> simp [h]

/-- **Every item is reported with the first test that hits it.** -/
theorem reports_run (tests : List τ) (items : List α) :
    (run hits tests items).reports =
      (List.range tests.length).flatMap fun k =>
        (items.filter fun a => (tests.findIdx? fun test => hits test a) == some k).map
          fun a => (a, k) := by
  induction tests using List.reverseRecOn with
  | nil => simp [run]
  | append_singleton tests test ih =>
    rw [run_concat, List.length_append, List.length_singleton, List.range_succ,
      List.flatMap_append, List.flatMap_singleton]
    simp only [step, ih, remaining_run, List.filter_filter]
    congr 1
    · -- an earlier number is found among the earlier tests
      refine List.flatMap_congr fun k hk => ?_
      congr 1
      refine List.filter_congr fun a _ => ?_
      rw [List.findIdx?_append]
      have hne : tests.length ≠ k := by
        have := List.mem_range.1 hk
        omega
      cases tests.findIdx? fun test => hits test a <;> cases h : hits test a <;> simp [h, hne]
    · congr 1
      refine List.filter_congr fun a _ => ?_
      rw [List.findIdx?_append]
      cases h : tests.findIdx? fun test => hits test a with
      | none => cases h : hits test a <;> simp [h]
      | some k =>
        have hlt : k < tests.length := (List.findIdx?_eq_some_iff_findIdx_eq.1 h).1
        simp [Nat.ne_of_lt hlt]

/-- The items of a kind that all tests treat alike are all reported with one test, or none is. -/
theorem filter_reports_run {tests : List τ} {items : List α} (kind : α → Bool) {first : Option ℕ}
    (h : ∀ a ∈ items, kind a = true → (tests.findIdx? fun test => hits test a) = first) :
    (run hits tests items).reports.filter (fun report => kind report.1) =
      first.toList.flatMap fun k => (items.filter kind).map fun a => (a, k) := by
  have hpart : ∀ k, ((items.filter fun a => (tests.findIdx? fun test => hits test a) == some k).map
      fun a => (a, k)).filter (fun report => kind report.1) =
      if first = some k then (items.filter kind).map fun a => (a, k) else [] := by
    intro k
    rw [List.filter_map, List.filter_filter]
    split
    case isTrue hk =>
      congr 1
      refine List.filter_congr fun a ha => ?_
      cases hkind : kind a with
      | false => simp [hkind]
      | true => simp [hkind, h a ha hkind, hk]
    case isFalse hk =>
      rw [List.map_eq_nil_iff, List.filter_eq_nil_iff]
      intro a ha
      cases hkind : kind a with
      | false => simp [hkind]
      | true => simp [hkind, h a ha hkind, hk]
  rw [reports_run, List.filter_flatMap]
  simp only [hpart]
  cases first with
  | none => simp
  | some k =>
    by_cases hkind : ∃ a ∈ items, kind a = true
    · obtain ⟨a, ha, hkind⟩ := hkind
      have hlt : k < tests.length := (List.findIdx?_eq_some_iff_findIdx_eq.1 (h a ha hkind)).1
      rw [flatMap_range_single hlt fun j hj => if_neg (by simpa using Ne.symm hj)]
      simp
    · have hnone : items.filter kind = [] :=
        List.filter_eq_nil_iff.2 fun a ha => by simpa using fun hk => hkind ⟨a, ha, hk⟩
      simp [hnone]

end Dropping

end FaultFlow.Lib
