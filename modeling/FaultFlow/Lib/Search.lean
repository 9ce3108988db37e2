/-
# Worklist searches

Loops over a worklist that visit a finite graph, given by the successors
`next` of each vertex.

* `search` marks a vertex when it enters the worklist, so each vertex enters
  once.  `put` says where: in front for a stack, at the end for a queue.  It
  finds exactly what the seeds reach (`mem_search_iff`).
* `finds` is that search with a stop at the first vertex of some kind
  (`finds_iff`).
* `visit` marks a vertex when it leaves the worklist, where a vertex may stand
  several times.  Started from a set that is closed under successors, it ends in
  a larger one (`visit_closed`).

The loops have fuel; the theorems say how much is enough.
-/

import Mathlib.Data.List.Basic
import Mathlib.Data.List.Nodup
import Mathlib.Data.List.Perm.Subperm
import Mathlib.Logic.Relation
import FaultFlow.Lib.Loop

namespace FaultFlow.Lib

variable {α : Type*} [DecidableEq α]

/-- The marked vertices in the order of marking, and those still to expand. -/
structure SearchState (α : Type*) where
  seen : List α
  work : List α

/-- Mark a successor, unless it is marked. -/
def relax (put : α → List α → List α) (st : SearchState α) (t : α) : SearchState α :=
  if t ∈ st.seen then st else ⟨st.seen ++ [t], put t st.work⟩

/-- Expand the vertices of the worklist, for at most `fuel` vertices. -/
def search (put : α → List α → List α) (next : α → List α) : ℕ → SearchState α → SearchState α
  | 0, st => st
  | fuel + 1, st =>
    match st.work with
    | [] => st
    | x :: work => search put next fuel ((next x).foldl (relax put) { st with work := work })

section Search

variable {put : α → List α → List α} (hput : ∀ t l, (put t l).Perm (t :: l)) {next : α → List α}
  {seeds U : List α}

variable (next seeds U) in
/-- What the search keeps: it has expanded `n` vertices, and all marked vertices
outside the worklist but those of `pending`, the vertex in the making. -/
structure SearchInv (n : ℕ) (pending : List α) (st : SearchState α) : Prop where
  nodup : st.seen.Nodup
  first : seeds <+: st.seen
  work : ∀ x ∈ st.work, x ∈ st.seen
  count : st.seen.length = st.work.length + n
  inside : ∀ x ∈ st.seen, x ∈ U
  reach : ∀ x ∈ st.seen, ∃ s ∈ seeds, Relation.ReflTransGen (fun a b => b ∈ next a) s x
  closed : ∀ x ∈ st.seen, x ∉ st.work → x ∉ pending → ∀ y ∈ next x, y ∈ st.seen

variable {work : List α} {n fuel : ℕ} {x : α} {st : SearchState α}

omit [DecidableEq α] in
/-- The invariant at the start. -/
theorem SearchInv.start (hw : work.Perm seeds) (hnd : seeds.Nodup) (hU : ∀ x ∈ seeds, x ∈ U) :
    SearchInv next seeds U 0 [] ⟨seeds, work⟩ where
  nodup := hnd
  first := List.prefix_rfl
  work x hx := hw.mem_iff.1 hx
  count := by simp [hw.length_eq]
  inside := hU
  reach x hx := ⟨x, hx, .refl⟩
  closed x hx hnot := absurd (hw.mem_iff.2 hx) hnot

include hput in
/-- **One neighbour keeps the invariant**, and is seen afterwards. -/
theorem SearchInv.relax {t : α} (h : SearchInv next seeds U n [x] st) (hx : x ∈ st.seen)
    (ht : t ∈ next x) (htU : t ∈ U) :
    SearchInv next seeds U n [x] (relax put st t) ∧ x ∈ (relax put st t).seen ∧
      t ∈ (Lib.relax put st t).seen ∧ ∀ y ∈ st.seen, y ∈ (Lib.relax put st t).seen := by
  unfold Lib.relax
  split
  · rename_i hmem
    exact ⟨h, hx, hmem, fun _ hy => hy⟩
  · rename_i hnew
    refine ⟨⟨?_, ?_, ?_, ?_, ?_, ?_, ?_⟩, by simp [hx], by simp, fun y hy => by simp [hy]⟩
    · simpa using h.nodup.concat hnew
    · exact h.first.trans (List.prefix_append _ _)
    · intro y hy
      rcases List.mem_cons.1 ((hput t st.work).mem_iff.1 hy) with rfl | hy
      · simp
      · simp [h.work y hy]
    · have hcount := h.count
      rw [List.length_append, List.length_singleton, (hput t st.work).length_eq, List.length_cons]
      omega
    · intro y hy
      rcases List.mem_append.1 hy with hy | hy
      · exact h.inside y hy
      · rwa [List.mem_singleton.1 hy]
    · intro y hy
      rcases List.mem_append.1 hy with hy | hy
      · exact h.reach y hy
      · obtain ⟨s, hs, hreach⟩ := h.reach x hx
        rw [List.mem_singleton.1 hy]
        exact ⟨s, hs, hreach.tail ht⟩
    · intro y hy hwork hpend z hz
      have hwork' : y ∉ st.work ∧ y ≠ t := by
        rw [(hput t st.work).mem_iff, List.mem_cons, not_or] at hwork
        exact ⟨hwork.2, hwork.1⟩
      rcases List.mem_append.1 hy with hy | hy
      · exact List.mem_append_left _ (h.closed y hy hwork'.1 hpend z hz)
      · exact absurd (List.mem_singleton.1 hy) hwork'.2

include hput in
/-- One vertex is expanded. -/
theorem SearchInv.expand (hnext : ∀ x ∈ U, ∀ y ∈ next x, y ∈ U) {seen : List α}
    (h : SearchInv next seeds U n [] ⟨seen, x :: work⟩) :
    SearchInv next seeds U (n + 1) [] ((next x).foldl (Lib.relax put) ⟨seen, work⟩) := by
  have hx : x ∈ seen := h.work x (by simp)
  have hstart : SearchInv next seeds U (n + 1) [x] ⟨seen, work⟩ :=
    { h with
      work := fun y hy => h.work y (List.mem_cons_of_mem _ hy)
      count := by
        have := h.count
        simp only [List.length_cons] at this ⊢
        omega
      closed := fun y hy hwork hpend => h.closed y hy
        (by simpa [List.mem_cons, not_or] using ⟨by simpa using hpend, hwork⟩) (by simp) }
  have key := foldl_visited (fun (pre : List α) (st : SearchState α) =>
      SearchInv next seeds U (n + 1) [x] st ∧ x ∈ st.seen ∧ ∀ y ∈ pre, y ∈ st.seen)
    (f := Lib.relax put) (l := next x) (b := ⟨seen, work⟩) ⟨hstart, hx, by simp⟩ ?_
  · obtain ⟨hinv, -, hall⟩ := key
    exact { hinv with
      closed := fun y hy hwork _ => by
        by_cases hyx : y = x
        · subst hyx
          exact hall
        · exact hinv.closed y hy hwork (by simpa using hyx) }
  · rintro pre t post st heq ⟨hinv, hxs, hpre⟩
    have ht : t ∈ next x := by simp [heq]
    obtain ⟨hinv', hxs', htmem, hmono⟩ := hinv.relax hput hxs ht (hnext x (h.inside x hx) t ht)
    refine ⟨hinv', hxs', fun y hy => ?_⟩
    rcases List.mem_append.1 hy with hy | hy
    · exact hmono y (hpre y hy)
    · rwa [List.mem_singleton.1 hy]

include hput in
/-- **The search ends** with nothing left to do, if the fuel covers the vertices. -/
theorem search_inv (hnext : ∀ x ∈ U, ∀ y ∈ next x, y ∈ U) (h : SearchInv next seeds U n [] st)
    (hfuel : U.length ≤ n + fuel) : (search put next fuel st).work = [] ∧
      ∃ m, SearchInv next seeds U m [] (search put next fuel st) := by
  induction fuel generalizing n st with
  | zero =>
    -- no more vertices can be expanded than there are
    have hle : st.seen.length ≤ U.length := (h.nodup.subperm h.inside).length_le
    have hcount := h.count
    exact ⟨List.eq_nil_of_length_eq_zero (by simp only [search]; omega), n, h⟩
  | succ fuel ih =>
    obtain ⟨seen, work⟩ := st
    cases work with
    | nil => exact ⟨rfl, n, h⟩
    | cons x work => exact ih (h.expand hput hnext) (by omega)

include hput in
/-- **The search finds what the seeds reach**, each vertex once and the seeds
first. -/
theorem search_spec (hnext : ∀ x ∈ U, ∀ y ∈ next x, y ∈ U) (hw : work.Perm seeds)
    (hnd : seeds.Nodup) (hU : ∀ x ∈ seeds, x ∈ U) (hfuel : U.length ≤ fuel) :
    (search put next fuel ⟨seeds, work⟩).seen.Nodup ∧
      seeds <+: (search put next fuel ⟨seeds, work⟩).seen ∧
      ∀ x, x ∈ (search put next fuel ⟨seeds, work⟩).seen ↔
        ∃ s ∈ seeds, Relation.ReflTransGen (fun a b => b ∈ next a) s x := by
  obtain ⟨hdone, m, h⟩ := search_inv hput hnext (SearchInv.start hw hnd hU)
    (show U.length ≤ 0 + fuel by omega)
  refine ⟨h.nodup, h.first, fun x => ⟨h.reach x, ?_⟩⟩
  rintro ⟨s, hs, hreach⟩
  induction hreach with
  | refl => exact h.first.subset hs
  | tail _ hstep ih => exact h.closed _ ih (by simp [hdone]) (by simp) _ hstep

end Search

/-! ### A search that stops at the first hit -/

/-- Mark successors up to the first hit; `none` if there is one. -/
def relaxUntil (hit : α → Bool) (put : α → List α → List α) :
    SearchState α → List α → Option (SearchState α)
  | st, [] => some st
  | st, t :: ts =>
    if t ∈ st.seen then relaxUntil hit put st ts
    else if hit t then none
    else relaxUntil hit put ⟨st.seen ++ [t], put t st.work⟩ ts

/-- Whether `search` marks a hit, with a stop at the first one. -/
def finds (hit : α → Bool) (put : α → List α → List α) (next : α → List α) :
    ℕ → SearchState α → Bool
  | 0, _ => false
  | fuel + 1, st =>
    match st.work with
    | [] => false
    | x :: work =>
      match relaxUntil hit put { st with work := work } (next x) with
      | none => true
      | some st => finds hit put next fuel st

section Finds

variable {hit : α → Bool} {put : α → List α → List α} {next : α → List α} {st : SearchState α}

/-- What is seen stays seen. -/
theorem mem_seen_relax {t x : α} (h : x ∈ st.seen) :
    x ∈ (relax put st t).seen := by
  unfold relax
  split
  · exact h
  · exact List.mem_append_left _ h

variable {ts : List α}

theorem mem_seen_foldl_relax {x : α} (h : x ∈ st.seen) :
    x ∈ (ts.foldl (relax put) st).seen :=
  foldl_invariant (fun st : SearchState α => x ∈ st.seen) h fun _ _ _ h => mem_seen_relax h

theorem mem_seen_search {fuel : ℕ} {x : α} (h : x ∈ st.seen) :
    x ∈ (search put next fuel st).seen := by
  induction fuel generalizing st with
  | zero => exact h
  | succ fuel ih =>
    obtain ⟨seen, work⟩ := st
    cases work with
    | nil => exact h
    | cons y work => exact ih (mem_seen_foldl_relax h)

/-- A stop means a hit among what would be marked. -/
theorem exists_hit_of_relaxUntil (h : relaxUntil hit put st ts = none) :
    ∃ x ∈ (ts.foldl (relax put) st).seen, hit x := by
  induction ts generalizing st with
  | nil => cases h
  | cons t ts ih =>
    rw [relaxUntil] at h
    rw [List.foldl_cons, relax]
    split at h
    · rw [if_pos ‹_›]
      exact ih h
    rw [if_neg ‹_›]
    split at h
    · exact ⟨t, mem_seen_foldl_relax (by simp), ‹_›⟩
    · exact ih h

/-- Without a stop the marks are those of the search, and none is a hit. -/
theorem relaxUntil_eq_some {st st' : SearchState α} (hst : ∀ x ∈ st.seen, ¬ hit x)
    (h : relaxUntil hit put st ts = some st') :
    st' = ts.foldl (relax put) st ∧ ∀ x ∈ st'.seen, ¬ hit x := by
  induction ts generalizing st with
  | nil =>
    cases h
    exact ⟨rfl, hst⟩
  | cons t ts ih =>
    rw [relaxUntil] at h
    rw [List.foldl_cons, relax]
    split at h
    · rw [if_pos ‹_›]
      exact ih hst h
    rw [if_neg ‹_›]
    split at h
    · cases h
    · refine ih (fun x hx => ?_) h
      rcases List.mem_append.1 hx with hx | hx
      · exact hst x hx
      · rwa [List.mem_singleton.1 hx]

/-- **A search that stops at the first hit finds one iff the whole search does.** -/
theorem finds_iff {fuel : ℕ} (hst : ∀ x ∈ st.seen, ¬ hit x) :
    finds hit put next fuel st = true ↔ ∃ x ∈ (search put next fuel st).seen, hit x := by
  induction fuel generalizing st with
  | zero => simpa [finds, search] using hst
  | succ fuel ih =>
    obtain ⟨seen, work⟩ := st
    cases work with
    | nil => simpa [finds, search] using hst
    | cons y work =>
      rw [finds, search]
      dsimp only
      cases hrel : relaxUntil hit put ⟨seen, work⟩ (next y) with
      | none =>
        obtain ⟨x, hx, hhit⟩ := exists_hit_of_relaxUntil hrel
        exact iff_of_true rfl ⟨x, mem_seen_search hx, hhit⟩
      | some st =>
        have hwork : ∀ x ∈ (SearchState.mk seen work).seen, ¬ hit x := hst
        obtain ⟨rfl, hno⟩ := relaxUntil_eq_some hwork hrel
        exact ih hno

end Finds

/-- Take vertices off the stack, mark those that are not marked and push their
unmarked successors; the newly marked vertices, in order. -/
def visit (next : α → List α) : ℕ → List α → List α → List α
  | 0, _, _ => []
  | _ + 1, _, [] => []
  | fuel + 1, seen, x :: work =>
    if x ∈ seen then visit next fuel seen work
    else x :: visit next fuel (seen ++ [x])
      ((next x).foldl (fun w y => if y ∈ seen ++ [x] then w else y :: w) work)

/-- The work after a vertex: the old one, and its unseen neighbours. -/
theorem mem_foldl_push {seen l work : List α} {y : α} :
    y ∈ l.foldl (fun w y => if y ∈ seen then w else y :: w) work ↔
      y ∈ work ∨ (y ∈ l ∧ y ∉ seen) := by
  induction l generalizing work with
  | nil => simp
  | cons z l ih =>
    rw [List.foldl_cons, ih, List.mem_cons]
    split
    · rename_i hz
      constructor
      · rintro (h | ⟨h, hn⟩)
        · exact .inl h
        · exact .inr ⟨.inr h, hn⟩
      · rintro (h | ⟨rfl | h, hn⟩)
        · exact .inl h
        · exact absurd hz hn
        · exact .inr ⟨h, hn⟩
    · rename_i hz
      rw [List.mem_cons]
      constructor
      · rintro ((rfl | h) | ⟨h, hn⟩)
        · exact .inr ⟨.inl rfl, hz⟩
        · exact .inl h
        · exact .inr ⟨.inr h, hn⟩
      · rintro (h | ⟨rfl | h, hn⟩)
        · exact .inl (.inr h)
        · exact .inl (.inl rfl)
        · exact .inr ⟨h, hn⟩

/-- A vertex adds at most its neighbours. -/
theorem length_foldl_push_le (seen l work : List α) :
    (l.foldl (fun w y => if y ∈ seen then w else y :: w) work).length ≤ work.length + l.length := by
  induction l generalizing work with
  | nil => simp
  | cons z l ih =>
    rw [List.foldl_cons, List.length_cons]
    split
    · have := ih work
      omega
    · have := ih (z :: work)
      rw [List.length_cons] at this
      omega

/-- **A visit ends in a closed set with the worklist in it.**  Each vertex has at
most `c` successors in the finite graph `U`. -/
theorem visit_closed {next : α → List α} {U : List α} {c : ℕ}
    (hnext : ∀ x ∈ U, ∀ y ∈ next x, y ∈ U) (hc : ∀ x, (next x).length ≤ c) {fuel : ℕ}
    {seen work : List α} (hnd : seen.Nodup) (hseen : ∀ x ∈ seen, x ∈ U) (hwork : ∀ x ∈ work, x ∈ U)
    (hclosed : ∀ x ∈ seen, ∀ y ∈ next x, y ∈ seen ∨ y ∈ work)
    (hfuel : (c + 1) * (U.length - seen.length) + work.length ≤ fuel) :
    (seen ++ visit next fuel seen work).Nodup ∧
      (∀ x ∈ seen ++ visit next fuel seen work, x ∈ U) ∧
      (∀ x ∈ work, x ∈ seen ++ visit next fuel seen work) ∧
      ∀ x ∈ seen ++ visit next fuel seen work, ∀ y ∈ next x,
        y ∈ seen ++ visit next fuel seen work := by
  induction fuel generalizing seen work with
  | zero =>
    obtain rfl : work = [] := List.eq_nil_of_length_eq_zero (by omega)
    simpa [visit, hnd] using ⟨hseen, fun x hx y hy => by simpa using hclosed x hx y hy⟩
  | succ fuel ih =>
    cases work with
    | nil => simpa [visit, hnd] using ⟨hseen, fun x hx y hy => by simpa using hclosed x hx y hy⟩
    | cons x work =>
      unfold visit
      rw [List.length_cons] at hfuel
      split
      · rename_i hx
        obtain ⟨hnd', hU', hwork', hclosed'⟩ := ih hnd hseen
          (fun y hy => hwork y (List.mem_cons_of_mem _ hy))
          (fun y hy z hz => by
            rcases hclosed y hy z hz with h | h
            · exact .inl h
            · rcases List.mem_cons.1 h with rfl | h
              · exact .inl hx
              · exact .inr h) (by omega)
        refine ⟨hnd', hU', fun y hy => ?_, hclosed'⟩
        rcases List.mem_cons.1 hy with rfl | hy
        · exact List.mem_append_left _ hx
        · exact hwork' y hy
      · rename_i hx
        have hxU := hwork x (by simp)
        have hnd' : (seen ++ [x]).Nodup := by simpa using hnd.concat hx
        have hseen' : ∀ y ∈ seen ++ [x], y ∈ U := by
          intro y hy
          rcases List.mem_append.1 hy with hy | hy
          · exact hseen y hy
          · rwa [List.mem_singleton.1 hy]
        -- marking `x` frees the fuel for its successors
        have hroom : (seen ++ [x]).length ≤ U.length := (hnd'.subperm hseen').length_le
        have hpush := length_foldl_push_le (seen ++ [x]) (next x) work
        have hcx := hc x
        rw [List.length_append, List.length_singleton] at hroom
        have hstep : (c + 1) * (U.length - seen.length) =
            (c + 1) * (U.length - (seen.length + 1)) + (c + 1) := by
          rw [← Nat.mul_succ]
          congr 1
          omega
        have hinside : ∀ y ∈ (next x).foldl (fun w y => if y ∈ seen ++ [x] then w else y :: w) work,
            y ∈ U := by
          intro y hy
          rcases mem_foldl_push.1 hy with h | ⟨h, -⟩
          · exact hwork y (List.mem_cons_of_mem _ h)
          · exact hnext x hxU y h
        have hclosed' : ∀ y ∈ seen ++ [x], ∀ z ∈ next y, z ∈ seen ++ [x] ∨
            z ∈ (next x).foldl (fun w y => if y ∈ seen ++ [x] then w else y :: w) work := by
          intro y hy z hz
          by_cases hz' : z ∈ seen ++ [x]
          · exact .inl hz'
          · rw [mem_foldl_push]
            rcases List.mem_append.1 hy with hy | hy
            · rcases hclosed y hy z hz with h | h
              · exact .inl (List.mem_append_left _ h)
              · rcases List.mem_cons.1 h with rfl | h
                · exact .inl (by simp)
                · exact .inr (.inl h)
            · rw [List.mem_singleton.1 hy] at hz
              exact .inr (.inr ⟨hz, hz'⟩)
        obtain ⟨h1, h2, h3, h4⟩ := ih hnd' hseen' hinside hclosed'
          (by rw [List.length_append, List.length_singleton]; omega)
        rw [List.append_assoc, List.singleton_append] at h1 h2 h3 h4
        refine ⟨h1, h2, fun y hy => ?_, h4⟩
        rcases List.mem_cons.1 hy with rfl | hy
        · simp
        · exact h3 y (mem_foldl_push.2 (.inl hy))

end FaultFlow.Lib
