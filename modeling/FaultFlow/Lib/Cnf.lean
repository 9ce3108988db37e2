/-
# Clauses and SAT solvers

A clause database is a list of clauses of `Std.Sat`, and a `SatSolver` is a
function on it that carries the proof that its answers are right: a model it
returns satisfies the clauses, and it gives up only on clauses without a model.
What is proved about a program that calls a solver holds for every such solver.

`backtrack` is a solver that runs: it assigns the variables in order and drops a
branch as soon as a clause has become empty.
-/

import Mathlib.Data.List.Dedup
import Mathlib.Logic.Function.Basic
import Std.Sat.CNF.Basic

namespace FaultFlow.Lib

open Std.Sat (Literal)
open Std.Sat.CNF (Clause)

universe u

variable {α : Type u}

/-- The value of a literal. -/
def litValue (a : α → Bool) (l : Literal α) : Bool := a l.1 == l.2

/-- The literal of a variable. -/
def pos (v : α) : Literal α := (v, true)

/-- A positive literal has the value of its variable. -/
@[simp]
theorem litValue_pos (a : α → Bool) (v : α) : litValue a (pos v) = a v := by
  cases h : a v <;> simp [litValue, pos, h]

/-- A negated literal has the other value. -/
@[simp]
theorem litValue_negate (a : α → Bool) (l : Literal α) :
    litValue a l.negate = !litValue a l := by
  obtain ⟨v, b⟩ := l
  cases h : a v <;> cases b <;> simp [litValue, Literal.negate, h]

variable {a : α → Bool}

/-- A clause holds if one of its literals does. -/
theorem eval_clause_iff {c : Clause α} :
    c.eval a = true ↔ ∃ l ∈ c, litValue a l = true := by
  exact List.any_eq_true

/-- An assignment satisfies every clause. -/
def Satisfies (a : α → Bool) (F : List (Clause α)) : Prop := ∀ c ∈ F, c.eval a = true

/-- There is nothing to satisfy in no clause. -/
@[simp]
theorem satisfies_nil (a : α → Bool) : Satisfies a [] := by simp [Satisfies]

/-- One more clause is one more condition. -/
@[simp]
theorem satisfies_cons {c : Clause α} {F : List (Clause α)} :
    Satisfies a (c :: F) ↔ c.eval a = true ∧ Satisfies a F := by simp [Satisfies]

/-- Both parts are satisfied. -/
@[simp]
theorem satisfies_append {F G : List (Clause α)} :
    Satisfies a (F ++ G) ↔ Satisfies a F ∧ Satisfies a G := by
  simp only [Satisfies, List.mem_append]
  exact ⟨fun h => ⟨fun c hc => h c (.inl hc), fun c hc => h c (.inr hc)⟩,
    fun h c hc => hc.elim (h.1 c) (h.2 c)⟩

/-- Every part is satisfied. -/
@[simp]
theorem satisfies_flatMap {β : Type*} {l : List β} {f : β → List (Clause α)} :
    Satisfies a (l.flatMap f) ↔ ∀ x ∈ l, Satisfies a (f x) := by
  simp only [Satisfies, List.mem_flatMap]
  exact ⟨fun h x hx c hc => h c ⟨x, hx, hc⟩, fun h c ⟨x, hx, hc⟩ => h x hx c hc⟩

/-- A sound and complete solver. -/
structure SatSolver (α : Type u) where
  solve : List (Clause α) → Option (α → Bool)
  sound : ∀ F a, solve F = some a → Satisfies a F
  complete : ∀ F, solve F = none → ∀ a, ¬ Satisfies a F

/-! ## A solver that runs -/

section Backtrack

variable [DecidableEq α]

/-- The clauses once `v` has the value `b`. -/
def assign (v : α) (b : Bool) (F : List (Clause α)) : List (Clause α) :=
  (F.filter fun c => (v, b) ∉ c).map fun c => c.filter fun l => l.1 ≠ v

/-- **Assigning a variable** is reading it as the value. -/
theorem satisfies_assign {a : α → Bool} {v : α} {b : Bool} {F : List (Clause α)} :
    Satisfies a (assign v b F) ↔ Satisfies (Function.update a v b) F := by
  have hlit : ∀ l : Literal α, l.1 ≠ v → litValue (Function.update a v b) l = litValue a l := by
    intro l hl
    rw [litValue, Function.update_of_ne hl, litValue]
  have hself : ∀ l : Literal α, l.1 = v → litValue (Function.update a v b) l = true → l = (v, b) := by
    rintro ⟨_, c⟩ rfl h
    rw [litValue, Function.update_self, beq_iff_eq] at h
    rw [h]
  simp only [Satisfies, assign, List.mem_map, List.mem_filter, decide_eq_true_eq]
  constructor
  · intro h c hc
    rw [eval_clause_iff]
    by_cases hv : (v, b) ∈ c
    · exact ⟨(v, b), hv, by simp [litValue]⟩
    · obtain ⟨l, hl, hval⟩ := eval_clause_iff.1 (h _ ⟨c, ⟨hc, hv⟩, rfl⟩)
      obtain ⟨hl, hne⟩ := List.mem_filter.1 hl
      exact ⟨l, hl, by rw [hlit l (by simpa using hne), hval]⟩
  · rintro h _ ⟨c, ⟨hc, hv⟩, rfl⟩
    obtain ⟨l, hl, hval⟩ := eval_clause_iff.1 (h c hc)
    have hne : l.1 ≠ v := fun heq => hv (hself l heq hval ▸ hl)
    exact eval_clause_iff.2 ⟨l, List.mem_filter.2 ⟨hl, by simpa using hne⟩, by rw [← hlit l hne, hval]⟩

/-- Try both values of each variable, dropping a branch with an empty clause. -/
def tryVars : List α → List (Clause α) → Option (α → Bool)
  | [], F => if F = [] then some fun _ => false else none
  | v :: vs, F =>
    if [] ∈ F then none
    else match tryVars vs (assign v false F) with
      | some a => some (Function.update a v false)
      | none => (tryVars vs (assign v true F)).map fun a => Function.update a v true

/-- **What the search finds satisfies the formula.** -/
theorem tryVars_sound (vs : List α) (F : List (Clause α)) (a : α → Bool)
    (h : tryVars vs F = some a) : Satisfies a F := by
  induction vs generalizing F a with
  | nil =>
    unfold tryVars at h
    split at h
    · rename_i hF
      simp [hF]
    · cases h
  | cons v vs ih =>
    unfold tryVars at h
    split at h
    · cases h
    · split at h
      · rename_i a' ha'
        cases h
        exact satisfies_assign.1 (ih _ _ ha')
      · obtain ⟨a', ha', rfl⟩ := Option.map_eq_some_iff.1 h
        exact satisfies_assign.1 (ih _ _ ha')

/-- **If it finds nothing there is nothing**, with every variable tried. -/
theorem tryVars_complete (vs : List α) (F : List (Clause α))
    (hvs : ∀ c ∈ F, ∀ l ∈ c, l.1 ∈ vs) (h : tryVars vs F = none) (a : α → Bool) :
    ¬ Satisfies a F := by
  induction vs generalizing F a with
  | nil =>
    unfold tryVars at h
    split at h
    · cases h
    · rename_i hF
      intro ha
      -- a clause without variables is empty
      obtain ⟨c, hc⟩ := List.exists_mem_of_ne_nil F hF
      obtain ⟨l, hl, -⟩ := eval_clause_iff.1 (ha c hc)
      exact List.not_mem_nil (hvs c hc l hl)
  | cons v vs ih =>
    unfold tryVars at h
    split at h
    · rename_i hempty
      intro ha
      simpa using ha [] hempty
    · have hassign : ∀ b, ∀ c ∈ assign v b F, ∀ l ∈ c, l.1 ∈ vs := by
        intro b c hc l hl
        obtain ⟨d, hd, rfl⟩ := List.mem_map.1 hc
        obtain ⟨hl, hne⟩ := List.mem_filter.1 hl
        exact (List.mem_cons.1 (hvs d (List.mem_filter.1 hd).1 l hl)).resolve_left (by simpa using hne)
      split at h
      · cases h
      · rename_i hfalse
        intro ha
        have htrue := Option.map_eq_none_iff.1 h
        have hval : Function.update a v (a v) = a := Function.update_eq_self v a
        cases hv : a v with
        | false =>
          rw [← hval, hv] at ha
          exact ih _ (hassign false) hfalse a (satisfies_assign.2 ha)
        | true =>
          rw [← hval, hv] at ha
          exact ih _ (hassign true) htrue a (satisfies_assign.2 ha)

/-- The backtracking solver. -/
def SatSolver.backtrack : SatSolver α where
  solve F := tryVars ((F.flatMap fun c => c.map Prod.fst).dedup) F
  sound F a h := tryVars_sound _ F a h
  complete F h := tryVars_complete _ F (fun c hc _ hl =>
    List.mem_dedup.2 (List.mem_flatMap.2 ⟨c, hc, List.mem_map_of_mem hl⟩)) h

end Backtrack

end FaultFlow.Lib
