/-
# Straight-line assignments

A pass over a netlist is a list of assignments, each writing one net from the
values of the nets it reads.  What a stale value can do to such a pass is said
by `Fresh D`: no assignment reads a net of `D` before some assignment has
written it.

* `run_lift`: two passes over different value types that agree, through a map of
  values, outside `D` before the pass agree outside what is left of `D` after it.
* `run_agree`: values a pass overwrites before it reads them do not matter.
* `run_eq_fn`: with single assignment, its result satisfies every equation.
-/

import Mathlib.Data.List.Forall2
import Mathlib.Data.Set.Basic
import Mathlib.Logic.Function.Basic

namespace FaultFlow.Lib

universe u v w

/-- An assignment to the net `out`; `fn` depends on the nets of `reads` only. -/
structure Assign (ι : Type u) (β : Type v) where
  out : ι
  reads : List ι
  fn : (ι → β) → β
  congr : ∀ x y : ι → β, (∀ i ∈ reads, x i = y i) → fn x = fn y

namespace Assign

variable {ι : Type u} [DecidableEq ι] {β : Type v} {γ : Type w}

/-- One assignment. -/
def step (x : ι → β) (a : Assign ι β) : ι → β := Function.update x a.out (a.fn x)

/-- A pass: the assignments in order. -/
def run (as : List (Assign ι β)) (x : ι → β) : ι → β := as.foldl step x

/-- The nets a pass writes. -/
def outs (as : List (Assign ι β)) : List ι := as.map out

@[simp]
theorem run_nil (x : ι → β) : run [] x = x := rfl

@[simp]
theorem run_cons (a : Assign ι β) (as : List (Assign ι β)) (x : ι → β) :
    run (a :: as) x = run as (step x a) := rfl

/-- Passes compose. -/
theorem run_append (as bs : List (Assign ι β)) (x : ι → β) :
    run (as ++ bs) x = run bs (run as x) := List.foldl_append

theorem step_out (x : ι → β) (a : Assign ι β) : step x a a.out = a.fn x :=
  Function.update_self ..

variable {x : ι → β} {i : ι}

/-- A step leaves the other variables alone. -/
theorem step_of_ne {a : Assign ι β} (h : i ≠ a.out) : step x a i = x i :=
  Function.update_of_ne h ..

variable {as : List (Assign ι β)}

/-- A pass leaves alone what it does not write. -/
theorem run_of_not_mem (h : i ∉ outs as) (x : ι → β) :
    run as x i = x i := by
  induction as generalizing x with
  | nil => rfl
  | cons a as ih =>
    simp only [outs, List.map_cons, List.mem_cons, not_or] at h
    rw [run_cons, ih h.2, step_of_ne h.1]

/-- A net keeps its value when every assignment to it writes the value it has. -/
theorem run_of_kept (h : ∀ a ∈ as, a.out = i → ∀ y : ι → β, y i = x i → a.fn y = x i) :
    run as x i = x i := by
  suffices H : ∀ y : ι → β, y i = x i → run as y i = x i from H x rfl
  induction as with
  | nil => exact fun y hy => hy
  | cons a as ih =>
    intro y hy
    refine ih (fun b hb => h b (List.mem_cons_of_mem _ hb)) _ ?_
    by_cases ha : a.out = i
    · rw [← ha, step_out, ha]
      exact h a (by simp) ha y hy
    · rw [step_of_ne (Ne.symm ha), hy]

/-- **Assignments that write what is there can be left out**: the dropped ones find
the value `c` on their net and write it again, and no other one writes to it. -/
theorem run_filter {p : Assign ι β → Bool} {c : ι → β}
    (hkeep : ∀ a ∈ as, p a = false → ∀ y, y a.out = c a.out → a.fn y = c a.out)
    (halone : ∀ a ∈ as, p a = false → ∀ b ∈ as, p b = true → b.out ≠ a.out)
    (hx : ∀ a ∈ as, p a = false → x a.out = c a.out) : run as x = run (as.filter p) x := by
  induction as generalizing x with
  | nil => rfl
  | cons a as ih =>
    have hrest := fun {y : ι → β} => ih (x := y) (fun b hb => hkeep b (.tail _ hb))
      fun b hb hpb d hd => halone b (.tail _ hb) hpb d (.tail _ hd)
    cases hpa : p a with
    | true =>
      rw [List.filter_cons_of_pos hpa, run_cons, run_cons]
      refine hrest fun b hb hpb => ?_
      rw [step_of_ne (halone b (.tail _ hb) hpb a (.head _) hpa).symm]
      exact hx b (.tail _ hb) hpb
    | false =>
      have hstep : step x a = x := by
        rw [step, hkeep a (.head _) hpa x (hx a (.head _) hpa), ← hx a (.head _) hpa,
          Function.update_eq_self]
      rw [List.filter_cons_of_neg (by simp [hpa]), run_cons, hstep]
      exact hrest fun b hb => hx b (.tail _ hb)

/-- No assignment reads a net of `D` before one has written it. -/
def Fresh (D : Set ι) : List (Assign ι β) → Prop
  | [] => True
  | a :: as => (∀ i ∈ a.reads, i ∉ D) ∧ Fresh (D \ {a.out}) as

variable {D : Set ι}

omit [DecidableEq ι] in
/-- The same by positions: what an assignment reads of `D` stands among the nets
written before it. -/
theorem fresh_iff :
    Fresh D as ↔ ∀ pre a post, as = pre ++ a :: post → ∀ i ∈ a.reads, i ∈ D → i ∈ outs pre := by
  induction as generalizing D with
  | nil => simp [Fresh]
  | cons b as ih =>
    rw [Fresh, ih]
    constructor
    · rintro ⟨hb, has⟩ pre a post heq i hi hD
      cases pre with
      | nil =>
        obtain ⟨rfl, -⟩ := List.cons.inj heq
        exact absurd hD (hb i hi)
      | cons c pre =>
        obtain ⟨rfl, htail⟩ := List.cons.inj heq
        by_cases hib : i = b.out
        · simp [outs, hib]
        · exact List.mem_cons_of_mem _ (has pre a post htail i hi ⟨hD, hib⟩)
    · intro h
      refine ⟨fun i hi hD => by simpa [outs] using h [] b as rfl i hi hD, ?_⟩
      rintro pre a post rfl i hi ⟨hD, hib⟩
      exact (List.mem_cons.1 (h (b :: pre) a post rfl i hi hD)).resolve_left hib

omit [DecidableEq ι] in
/-- Fewer variables to watch. -/
theorem Fresh.mono {D D' : Set ι} (hD : D ⊆ D') (h : Fresh D' as) :
    Fresh D as :=
  fresh_iff.2 fun pre a post heq i hi hiD => fresh_iff.1 h pre a post heq i hi (hD hiD)

omit [DecidableEq ι] in
/-- Leaving out assignments to other nets keeps a pass fresh. -/
theorem Fresh.filter {p : Assign ι β → Bool} (h : Fresh D as)
    (hp : ∀ a ∈ as, a.out ∈ D → p a = true) : Fresh D (as.filter p) := by
  refine fresh_iff.2 fun pre a post heq i hi hD => ?_
  obtain ⟨pre', post', rfl, hpre, hpost⟩ := List.filter_eq_append_iff.1 heq
  obtain ⟨mid, rest, rfl, hmid, hpa, -⟩ := List.filter_eq_cons_iff.1 hpost
  have hmem := fresh_iff.1 h (pre' ++ mid) a rest (by simp) i hi hD
  obtain ⟨b, hb, rfl⟩ := List.mem_map.1 hmem
  have hpb : p b = true := hp b (by simp only [List.mem_append] at hb ⊢; tauto) hD
  rcases List.mem_append.1 hb with hb | hb
  · exact List.mem_map.2 ⟨b, hpre ▸ List.mem_filter.2 ⟨hb, hpb⟩, rfl⟩
  · exact absurd hpb (hmid b hb)

omit [DecidableEq ι] in
/-- With none to watch every pass is fresh. -/
theorem fresh_empty (as : List (Assign ι β)) : Fresh ∅ as :=
  fresh_iff.2 fun _ _ _ _ _ _ h => h.elim

omit [DecidableEq ι] in
/-- A pass in two parts: the second may read what the first writes. -/
theorem fresh_append {as bs : List (Assign ι β)} :
    Fresh D (as ++ bs) ↔ Fresh D as ∧ Fresh (D \ {i | i ∈ outs as}) bs := by
  induction as generalizing D with
  | nil =>
    have hset : D \ {i | i ∈ outs ([] : List (Assign ι β))} = D := by
      ext i
      exact ⟨And.left, fun h => ⟨h, List.not_mem_nil⟩⟩
    rw [List.nil_append, hset, Fresh, true_and]
  | cons a as ih =>
    have hset : (D \ {a.out}) \ {i | i ∈ outs as} = D \ {i | i ∈ outs (a :: as)} := by
      ext i
      show (i ∈ D ∧ i ≠ a.out) ∧ i ∉ outs as ↔ i ∈ D ∧ i ∉ a.out :: outs as
      rw [List.mem_cons, not_or, and_assoc]
    rw [List.cons_append, Fresh, Fresh, ih, hset, and_assoc]

omit [DecidableEq ι] in
/-- A pass that reads nothing is fresh. -/
theorem fresh_of_reads_nil (h : ∀ a ∈ as, a.reads = []) :
    Fresh D as :=
  fresh_iff.2 fun pre a post heq i hi _ => by simp [h a (by simp [heq])] at hi

/-- Assignment `a` computes, through the map `h`, what `b` computes. -/
def Lifts (h : γ → β) (a : Assign ι β) (b : Assign ι γ) : Prop :=
  a.out = b.out ∧ ∀ x y, (∀ i ∈ a.reads, x i = h (y i)) → a.fn x = h (b.fn y)

omit [DecidableEq ι] in
/-- An assignment lifts itself. -/
theorem lifts_self (a : Assign ι β) : Lifts id a a := ⟨rfl, a.congr⟩

/-- **Two passes in lockstep.**  They may start apart on the nets of `D`, if the
pass writes those before it reads them. -/
theorem run_lift {h : γ → β} {bs : List (Assign ι γ)} (hl : List.Forall₂ (Lifts h) as bs)
    (hf : Fresh D as) {y : ι → γ} (hxy : ∀ i ∉ D, x i = h (y i)) (hi : i ∈ D → i ∈ outs as) :
    run as x i = h (run bs y i) := by
  induction hl generalizing D x y with
  | nil => exact hxy i fun hD => by simpa [outs] using hi hD
  | @cons a b as bs hab _ ih =>
    obtain ⟨hreads, hf⟩ := hf
    refine ih hf (fun j hj => ?_) fun hD => ?_
    · by_cases hja : j = a.out
      · subst hja
        rw [step_out, hab.1, step_out]
        exact hab.2 x y fun k hk => hxy k (hreads k hk)
      · rw [step_of_ne hja, step_of_ne (hab.1 ▸ hja)]
        exact hxy j fun hD => hj ⟨hD, hja⟩
    · exact (List.mem_cons.1 (hi hD.1)).resolve_left hD.2

/-- **Stale values that are overwritten before they are read do not matter.** -/
theorem run_agree (hf : Fresh D as) {x y : ι → β} (hxy : ∀ i ∉ D, x i = y i)
    (hi : i ∈ D → i ∈ outs as) : run as x i = run as y i :=
  run_lift (h := id) (List.forall₂_same.2 fun a _ => lifts_self a) hf hxy hi

/-- A net that is written once has what its assignment makes of the values before it. -/
theorem run_out {pre post : List (Assign ι β)} {a : Assign ι β}
    (hnd : (outs (pre ++ a :: post)).Nodup) (x : ι → β) :
    run (pre ++ a :: post) x a.out = a.fn (run pre x) := by
  have hout : a.out ∉ outs post := by
    simp only [outs, List.map_append, List.map_cons, List.nodup_append, List.nodup_cons] at hnd
    exact hnd.2.1.1
  rw [run_append, run_cons, run_of_not_mem hout, step_out]

/-- **The result of a pass solves its equations**, when every net is written
once and before it is read. -/
theorem run_eq_fn (hf : Fresh {i | i ∈ outs as} as) (hnd : (outs as).Nodup) (x : ι → β)
    {a : Assign ι β} (ha : a ∈ as) :
    run as x a.out = a.fn (run as x) := by
  obtain ⟨pre, post, rfl⟩ := List.append_of_mem ha
  have hlater : ∀ i ∈ a.reads, i ∉ outs (a :: post) := by
    intro i hi hmem
    have hpre := fresh_iff.1 hf pre a post rfl i hi
      (show i ∈ outs (pre ++ a :: post) by simp [outs] at hmem ⊢; tauto)
    simp only [outs, List.map_append, List.nodup_append] at hnd
    exact hnd.2.2 i hpre i hmem rfl
  rw [run_out hnd]
  refine a.congr _ _ fun i hi => ?_
  rw [run_append, run_of_not_mem (hlater i hi)]

end Assign

end FaultFlow.Lib
