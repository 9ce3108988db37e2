/-
# A sweep that keeps what still covers something

A sweep goes through a list with a set of targets.  An element is kept when it covers a target
that no kept element before it covers, together with the targets it is the first to cover; the
sweep is over once no target remains.

What is kept covers what the whole list covers (`exists_kept_of_covered`), and each kept
element covers the targets kept with it (`covers_of_mem_kept`), none of them covered by an element
kept before (`irredundant_run`).
-/

import FaultFlow.Lib.Loop
import Mathlib.Data.Finset.Basic

namespace FaultFlow.Lib

universe u

variable {α τ : Type u} [DecidableEq τ]

/-- The targets that remain, and the kept elements with what each is the first to cover. -/
structure Sweep (α τ : Type u) where
  remaining : Finset τ
  kept : List (α × Finset τ) := []

namespace Sweep

/-- One element. -/
def turn (covers : α → τ → Bool) (s : Sweep α τ) (a : α) : Sweep α τ :=
  if s.remaining = ∅ then s
  else
    let newly := s.remaining.filter fun t => covers a t
    if newly = ∅ then s
    else { remaining := s.remaining \ newly, kept := s.kept ++ [(a, newly)] }

/-- The whole sweep. -/
def run (covers : α → τ → Bool) (targets : Finset τ) (l : List α) : Sweep α τ :=
  l.foldl (turn covers) { remaining := targets }

variable {covers : α → τ → Bool} {targets : Finset τ}

/-- **What one element does**: it is kept with what it covers, or it covers nothing that
remains. -/
theorem turn_cases (covers : α → τ → Bool) (s : Sweep α τ) (a : α) :
    ((∀ t ∈ s.remaining, covers a t = false) ∧ turn covers s a = s) ∨
      turn covers s a = { remaining := s.remaining.filter fun t => ¬ covers a t,
                          kept := s.kept ++ [(a, s.remaining.filter fun t => covers a t)] } := by
  unfold turn
  by_cases hnone : s.remaining = ∅
  · exact .inl ⟨by simp [hnone], by rw [if_pos hnone]⟩
  · rw [if_neg hnone]
    by_cases hnew : (s.remaining.filter fun t => covers a t) = ∅
    · refine .inl ⟨fun t ht => ?_, by simp only [hnew, if_true]⟩
      simpa using Finset.filter_eq_empty_iff.1 hnew ht
    · refine .inr ?_
      simp only [hnew, if_false]
      rw [Finset.filter_not]

/-- The kept elements stand in the order of the list. -/
theorem kept_sublist (covers : α → τ → Bool) (targets : Finset τ) (l : List α) :
    ((run covers targets l).kept.map Prod.fst).Sublist l := by
  refine foldl_visited (fun pre (s : Sweep α τ) => (s.kept.map Prod.fst).Sublist pre)
    (List.Sublist.refl []) ?_
  intro pre a post s _ hs
  rcases turn_cases covers s a with ⟨-, hturn⟩ | hturn
  · rw [hturn]
    exact hs.trans (List.sublist_append_left pre [a])
  · rw [hturn, List.map_append]
    exact hs.append (List.Sublist.refl [a])

/-- A kept element covers what is kept with it. -/
theorem covers_of_mem_kept {l : List α} {p : α × Finset τ} (hp : p ∈ (run covers targets l).kept)
    {t : τ} (ht : t ∈ p.2) : covers p.1 t = true := by
  have hinv := foldl_invariant (l := l) (f := turn covers) (b := { remaining := targets })
    (fun s : Sweep α τ => ∀ p ∈ s.kept, ∀ t ∈ p.2, covers p.1 t = true) (by simp) ?_
  · exact hinv p hp t ht
  · intro a _ s hs
    rcases turn_cases covers s a with ⟨-, hturn⟩ | hturn
    · rw [hturn]
      exact hs
    · rw [hturn]
      intro q hq t ht
      rcases List.mem_append.1 hq with hq | hq
      · exact hs q hq t ht
      · obtain rfl := List.mem_singleton.1 hq
        exact (Finset.mem_filter.1 ht).2

/-- **Nothing is lost**: a target that some element covers is kept with some element. -/
theorem exists_kept_of_covered {l : List α} {t : τ} (ht : t ∈ targets)
    (hcov : ∃ a ∈ l, covers a t = true) : ∃ p ∈ (run covers targets l).kept, t ∈ p.2 := by
  have hvisited := foldl_visited (f := turn covers) (l := l) (b := { remaining := targets })
    (fun pre (s : Sweep α τ) => (∃ p ∈ s.kept, t ∈ p.2) ∨
      (t ∈ s.remaining ∧ ∀ a ∈ pre, covers a t = false)) (.inr ⟨ht, by simp⟩) ?_
  · refine hvisited.resolve_right fun ⟨_, hnot⟩ => ?_
    obtain ⟨a, ha, hc⟩ := hcov
    simp [hnot a ha] at hc
  · intro pre a post s _ hs
    rcases turn_cases covers s a with ⟨hnone, hturn⟩ | hturn
    · rw [hturn]
      refine hs.imp_right fun ⟨hrem, hpre⟩ => ⟨hrem, fun b hb => ?_⟩
      rcases List.mem_append.1 hb with hb | hb
      · exact hpre b hb
      · exact List.mem_singleton.1 hb ▸ hnone t hrem
    · rw [hturn]
      rcases hs with ⟨p, hp, hpt⟩ | ⟨hrem, hpre⟩
      · exact .inl ⟨p, List.mem_append_left _ hp, hpt⟩
      · -- the element covers the target, or leaves it
        cases hc : covers a t with
        | true => exact .inl ⟨_, List.mem_append_right _ (List.mem_singleton.2 rfl),
            Finset.mem_filter.2 ⟨hrem, hc⟩⟩
        | false =>
          refine .inr ⟨Finset.mem_filter.2 ⟨hrem, by simp [hc]⟩, fun b hb => ?_⟩
          rcases List.mem_append.1 hb with hb | hb
          · exact hpre b hb
          · exact List.mem_singleton.1 hb ▸ hc

/-- Nothing that is kept is spare: it has a target, and what was kept before it covers none of its
targets. -/
structure Irredundant (covers : α → τ → Bool) (targets : Finset τ) (s : Sweep α τ) : Prop where
  within : s.remaining ⊆ targets
  owns : ∀ p ∈ s.kept, ∃ t ∈ p.2, t ∈ targets
  first : s.kept.Pairwise fun q p => ∀ t ∈ p.2, covers q.1 t = false
  left : ∀ p ∈ s.kept, ∀ t ∈ s.remaining, covers p.1 t = false

/-- **A sweep keeps nothing spare.** -/
theorem irredundant_run (covers : α → τ → Bool) (targets : Finset τ) (l : List α) :
    (run covers targets l).Irredundant covers targets := by
  refine foldl_invariant (Irredundant covers targets) ⟨subset_rfl, by simp, .nil, by simp⟩ ?_
  intro a _ s hs
  unfold turn
  dsimp only
  split
  · exact hs
  split
  · exact hs
  rename_i hnew
  obtain ⟨t, ht⟩ := Finset.nonempty_iff_ne_empty.2 hnew
  refine ⟨Finset.sdiff_subset.trans hs.within, List.forall_mem_append.2 ⟨hs.owns, ?_⟩,
    List.pairwise_append.2 ⟨hs.first, List.pairwise_singleton _ _, fun q hq p hp t ht => ?_⟩,
    List.forall_mem_append.2 ⟨fun q hq t ht => hs.left q hq t (Finset.mem_sdiff.1 ht).1, ?_⟩⟩
  · rw [List.forall_mem_singleton]
    exact ⟨t, ht, hs.within (Finset.mem_filter.1 ht).1⟩
  · obtain rfl := List.mem_singleton.1 hp
    exact hs.left q hq t (Finset.mem_filter.1 ht).1
  · rw [List.forall_mem_singleton]
    intro t ht
    simp_all

end Sweep

end FaultFlow.Lib
