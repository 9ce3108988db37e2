/-
# Following links

A partial function `next` links every element to at most one other.  Where no element comes back
to itself and only finitely many are linked, following the links from any element ends, and at one
element only (`existsUnique_end`).

A relation may split a list into paths (`Splits`).  Where each element leads to at most one other
and no two lead to the same one (`Links`), following the links from the elements that nothing leads
to finds these paths, and there are such paths if and only if none is left out
(`Links.splits_rootPaths`, `Links.length_rootPaths`).
-/

import Mathlib.Data.List.Chain
import Mathlib.Data.List.Perm.Subperm
import Mathlib.Order.WellFoundedSet

namespace FaultFlow.Lib

variable {α : Type*}

/-- A relation on finitely many elements without a cycle is well-founded, backwards. -/
theorem wellFounded_of_acyclic {r : α → α → Prop} {s : Set α} (hs : s.Finite)
    (hr : ∀ a b, r a b → a ∈ s ∧ b ∈ s) (hac : ∀ a, ¬ Relation.TransGen r a a) :
    WellFounded fun b a => r a b := by
  have hstrict : IsStrictOrder α fun b a => Relation.TransGen r a b :=
    { irrefl := hac, trans := fun _ _ _ hab hbc => hbc.trans hab }
  refine Subrelation.wf ?_ (Set.wellFoundedOn_iff.1 (hs.wellFoundedOn (r := fun b a =>
    Relation.TransGen r a b)))
  exact fun {b a} hab => ⟨.single hab, (hr a b hab).2, (hr a b hab).1⟩

/-- Element `b` is reached from `a` by following `next`. -/
def Reaches (next : α → Option α) : α → α → Prop :=
  Relation.ReflTransGen fun a b => next a = some b

/-- **Well-founded links end, at one place.** -/
theorem existsUnique_end {next : α → Option α} (hwf : WellFounded fun b a => next a = some b)
    (a : α) : ∃! b, Reaches next a b ∧ next b = none := by
  have hex : ∀ a, ∃ b, Reaches next a b ∧ next b = none := by
    intro a
    induction a using hwf.induction with
    | _ a ih =>
      cases hnext : next a with
      | none => exact ⟨a, .refl, hnext⟩
      | some b =>
        obtain ⟨c, hbc, hc⟩ := ih b hnext
        exact ⟨c, .head hnext hbc, hc⟩
  have hstop : ∀ {b c : α}, next b = none → Reaches next b c → c = b := by
    intro b c hb hbc
    rcases hbc.cases_head with rfl | ⟨d, hd, -⟩
    · rfl
    · rw [hb] at hd
      cases hd
  obtain ⟨b, hab, hb⟩ := hex a
  refine ⟨b, ⟨hab, hb⟩, fun c ⟨hac, hc⟩ => ?_⟩
  rcases hab.total_of_right_unique (fun _ _ _ h h' => Option.some.inj (h.symm.trans h')) hac with
    hbc | hcb
  · exact hstop hb hbc
  · exact (hstop hc hcb).symm

/-! ## Paths -/

/-- The relation splits `s` into paths: every element lies on one of them, once, neighbours on a
path are related, and no others are. -/
structure Splits (s : List α) (R : α → α → Prop) (paths : List (List α)) : Prop where
  perm : paths.flatten.Perm s
  ne_nil : [] ∉ paths
  linked : ∀ p ∈ paths, p.IsChain R
  only : ∀ a ∈ s, ∀ b ∈ s, R a b → ∃ p ∈ paths, [a, b] <:+: p

/-- No element of `s` leads to `a`. -/
def IsRoot (s : List α) (R : α → α → Prop) (a : α) : Prop := a ∈ s ∧ ∀ b ∈ s, ¬ R b a

namespace Splits

variable {s : List α} {R : α → α → Prop} {paths : List (List α)}

theorem mem_iff (h : Splits s R paths) {a : α} : a ∈ s ↔ ∃ p ∈ paths, a ∈ p := by
  rw [← h.perm.mem_iff, List.mem_flatten]

theorem nodup (h : Splits s R paths) (hs : s.Nodup) {p : List α} (hp : p ∈ paths) : p.Nodup :=
  (List.nodup_flatten.1 (h.perm.nodup_iff.2 hs)).1 p hp

/-- An element lies on one path. -/
theorem eq_of_mem (h : Splits s R paths) (hs : s.Nodup) {p q : List α} (hp : p ∈ paths)
    (hq : q ∈ paths) {a : α} (hap : a ∈ p) (haq : a ∈ q) : p = q := by
  by_contra hne
  have hdisj := (List.nodup_flatten.1 (h.perm.nodup_iff.2 hs)).2
  have : Std.Symm fun l l' : List α => l.Disjoint l' := ⟨fun _ _ hll' => hll'.symm⟩
  exact hdisj.forall hp hq hne hap haq

/-- The paths the other way round. -/
theorem reverse (h : Splits s R paths) : Splits s (fun a b => R b a) (paths.map List.reverse) := by
  refine ⟨?_, ?_, ?_, fun a ha b hb hba => ?_⟩
  · refine List.Perm.trans ?_ h.perm
    clear h
    induction paths with
    | nil => exact .nil
    | cons p paths ih => exact (List.reverse_perm p).append ih
  · rw [List.mem_map]
    rintro ⟨p, hp, hnil⟩
    exact h.ne_nil (List.reverse_eq_nil_iff.1 hnil ▸ hp)
  · intro p hp
    obtain ⟨q, hq, rfl⟩ := List.mem_map.1 hp
    exact List.isChain_reverse.2 (h.linked q hq)
  · obtain ⟨p, hp, hinfix⟩ := h.only b hb a ha hba
    exact ⟨p.reverse, List.mem_map_of_mem hp, List.reverse_infix.2 hinfix⟩

/-- **The paths begin where nothing leads to.** -/
theorem isRoot_iff (h : Splits s R paths) (hs : s.Nodup) {a : α} :
    IsRoot s R a ↔ ∃ p ∈ paths, p.head? = some a := by
  constructor
  · rintro ⟨ha, hno⟩
    obtain ⟨p, hp, hap⟩ := h.mem_iff.1 ha
    obtain ⟨l, l', rfl⟩ := List.append_of_mem hap
    rcases List.eq_nil_or_concat l with rfl | ⟨l, b, rfl⟩
    · exact ⟨_, hp, rfl⟩
    · have hlink := h.linked _ hp
      rw [List.concat_eq_append, List.append_assoc] at hlink
      have hba : R b a := (List.isChain_append_cons_cons.1 hlink).2.1
      exact absurd hba (hno b (h.mem_iff.2 ⟨_, hp, by simp⟩))
  · rintro ⟨p, hp, hhead⟩
    obtain ⟨t, rfl⟩ := List.head?_eq_some_iff.1 hhead
    have ha : a ∈ s := h.mem_iff.2 ⟨_, hp, List.mem_cons_self⟩
    refine ⟨ha, fun b hb hba => ?_⟩
    obtain ⟨q, hq, l, l', hinfix⟩ := h.only b hb a ha hba
    obtain rfl := h.eq_of_mem hs hp hq List.mem_cons_self (a := a) (by simp [← hinfix])
    -- on its path `a` would come first and after `b`
    have hnd := h.nodup hs hp
    cases l with
    | nil =>
      obtain ⟨rfl, rfl⟩ := List.cons.inj hinfix
      simp at hnd
    | cons x l =>
      obtain ⟨rfl, rfl⟩ := List.cons.inj hinfix
      simp at hnd

/-- **They end where nothing is led to.** -/
theorem isEnd_iff (h : Splits s R paths) (hs : s.Nodup) {a : α} :
    IsRoot s (fun a b => R b a) a ↔ ∃ p ∈ paths, p.getLast? = some a := by
  rw [h.reverse.isRoot_iff hs]
  simp only [List.mem_map, exists_exists_and_eq_and, List.head?_reverse]

end Splits

/-- The first `k` elements from `a` on. -/
def pathFrom (next : α → Option α) : ℕ → α → List α
  | 0, _ => []
  | k + 1, a => a :: ((next a).map (pathFrom next k)).getD []

/-- The function `next` gives the only element of `s` that the relation leads to, and no two
elements lead to the same one. -/
structure Links (s : List α) (R : α → α → Prop) (next : α → Option α) : Prop where
  nodup : s.Nodup
  next_iff : ∀ a ∈ s, ∀ b, next a = some b ↔ b ∈ s ∧ R a b
  inj : ∀ a ∈ s, ∀ b ∈ s, ∀ c ∈ s, R a c → R b c → a = b

namespace Links

variable {s : List α} {R : α → α → Prop} {next : α → Option α}

theorem pathFrom_spec (h : Links s R next) (k : ℕ) {a : α} (ha : a ∈ s) :
    (pathFrom next k a).IsChain R ∧ ∀ x ∈ pathFrom next k a, x ∈ s := by
  induction k generalizing a with
  | zero => exact ⟨.nil, by simp [pathFrom]⟩
  | succ k ih =>
    cases hnext : next a with
    | none => simpa [pathFrom, hnext] using ha
    | some b =>
      obtain ⟨hb, hab⟩ := (h.next_iff a ha b).1 hnext
      obtain ⟨hchain, hmem⟩ := ih hb
      simp only [pathFrom, hnext, Option.map_some, Option.getD_some, List.mem_cons,
        forall_eq_or_imp]
      refine ⟨hchain.cons fun y hy => ?_, ha, hmem⟩
      cases k with
      | zero => simp [pathFrom] at hy
      | succ k =>
        obtain rfl : b = y := by simpa [pathFrom] using hy
        exact hab

/-- A path shorter than it may be has ended. -/
theorem next_getLast (h : Links s R next) {k : ℕ} {a : α} (ha : a ∈ s)
    (hlt : (pathFrom next k a).length < k) {x : α} (hx : (pathFrom next k a).getLast? = some x) :
    next x = none := by
  induction k generalizing a with
  | zero => simp at hlt
  | succ k ih =>
    cases hnext : next a with
    | none =>
      obtain rfl : a = x := by simpa [pathFrom, hnext] using hx
      exact hnext
    | some b =>
      simp only [pathFrom, hnext, Option.map_some, Option.getD_some, List.length_cons] at hlt hx
      refine ih ((h.next_iff a ha b).1 hnext).1 (by omega) ?_
      rw [List.getLast?_cons] at hx
      cases hlast : (pathFrom next k b).getLast? with
      | none =>
        rw [List.getLast?_eq_none_iff] at hlast
        cases k with
        | zero => omega
        | succ k => simp [pathFrom] at hlast
      | some y => simpa [hlast] using hx

theorem rel_of_isChain {l : List α} {x y : α} (hl : (l ++ [y] ++ [x]).IsChain R) : R y x := by
  rw [List.append_assoc] at hl
  exact (List.isChain_append_cons_cons.1 hl).2.1

/-- **Two paths to one element are the same**, if nothing leads to where they begin. -/
theorem eq_of_isChain (h : Links s R next) {l l' : List α} {x : α}
    (hl : (l ++ [x]).IsChain R) (hl' : (l' ++ [x]).IsChain R) (hs : ∀ y ∈ l ++ [x], y ∈ s)
    (hs' : ∀ y ∈ l' ++ [x], y ∈ s) (hroot : ∀ y ∈ (l ++ [x]).head?, IsRoot s R y)
    (hroot' : ∀ y ∈ (l' ++ [x]).head?, IsRoot s R y) : l = l' := by
  induction l using List.reverseRecOn generalizing l' x with
  | nil =>
    rcases List.eq_nil_or_concat l' with rfl | ⟨l', y, rfl⟩
    · rfl
    · rw [List.concat_eq_append] at hl' hs'
      exact absurd (rel_of_isChain hl') ((hroot x (by simp)).2 y (hs' y (by simp)))
  | append_singleton l y ih =>
    rcases List.eq_nil_or_concat l' with rfl | ⟨l', z, rfl⟩
    · exact absurd (rel_of_isChain hl) ((hroot' x (by simp)).2 y (hs y (by simp)))
    · rw [List.concat_eq_append] at hl' hs' hroot' ⊢
      obtain rfl : y = z := h.inj y (hs y (by simp)) z (hs' z (by simp)) x (hs x (by simp))
        (rel_of_isChain hl) (rel_of_isChain hl')
      rw [ih hl.left_of_append hl'.left_of_append (fun w hw => hs w (List.mem_append_left _ hw))
        (fun w hw => hs' w (List.mem_append_left _ hw)) ?_ ?_]
      · rwa [List.head?_append_of_ne_nil _ (by simp)] at hroot
      · rwa [List.head?_append_of_ne_nil _ (by simp)] at hroot'

/-- The elements of a path from a root are different. -/
theorem nodup_of_isChain (h : Links s R next) {l : List α} (hl : l.IsChain R)
    (hs : ∀ y ∈ l, y ∈ s) (hroot : ∀ y ∈ l.head?, IsRoot s R y) : l.Nodup := by
  induction l using List.reverseRecOn with
  | nil => exact List.nodup_nil
  | append_singleton l x ih =>
    have hfront : ∀ y ∈ l.head?, IsRoot s R y := by
      intro y hy
      refine hroot y ?_
      rw [List.head?_append_of_ne_nil _ (by rintro rfl; simp at hy)]
      exact hy
    have hnd := ih hl.left_of_append (fun y hy => hs y (by simp [hy])) hfront
    rw [List.nodup_append_comm]
    refine List.nodup_cons.2 ⟨fun hx => ?_, hnd⟩
    -- the path up to the first `x` would be as long as the whole
    obtain ⟨u, v, rfl⟩ := List.append_of_mem hx
    have hfirst : (u ++ [x] ++ (v ++ [x])).IsChain R := by simpa using hl
    have heq := h.eq_of_isChain hfirst.left_of_append hl (fun y hy => hs y (by simp_all; tauto)) hs ?_ hroot
    · simpa using congrArg List.length heq
    · intro y hy
      refine hroot y ?_
      cases u with
      | nil => simpa using hy
      | cons z u => simpa using hy

/-- A path from a root ends within the number of elements. -/
theorem pathFrom_root (h : Links s R next) {a : α} (ha : IsRoot s R a) :
    (pathFrom next (s.length + 1) a).Nodup ∧
      (pathFrom next (s.length + 1) a).length ≤ s.length := by
  obtain ⟨hchain, hmem⟩ := h.pathFrom_spec (s.length + 1) ha.1
  have hnd : (pathFrom next (s.length + 1) a).Nodup := by
    refine h.nodup_of_isChain hchain hmem fun y hy => ?_
    obtain rfl : a = y := by simpa [pathFrom] using hy
    exact ha
  exact ⟨hnd, (hnd.subperm hmem).length_le⟩

/-- A path from a root goes on to all that is led to. -/
theorem infix_pathFrom (h : Links s R next) {r a b : α} (hr : IsRoot s R r)
    (ha : a ∈ pathFrom next (s.length + 1) r) (hb : b ∈ s) (hab : R a b) :
    [a, b] <:+: pathFrom next (s.length + 1) r := by
  obtain ⟨hchain, hmem⟩ := h.pathFrom_spec (s.length + 1) hr.1
  have hlen := (h.pathFrom_root hr).2
  have hnext := (h.next_iff a (hmem a ha) b).2 ⟨hb, hab⟩
  obtain ⟨l, l', heq⟩ := List.append_of_mem ha
  cases l' with
  | nil =>
    have hlast := h.next_getLast hr.1 (Nat.lt_succ_of_le hlen) (x := a) (by simp [heq])
    rw [hnext] at hlast
    cases hlast
  | cons c l' =>
    rw [heq] at hchain hmem
    have hac : R a c := (List.isChain_append_cons_cons.1 hchain).2.1
    have hc : next a = some c := (h.next_iff a (hmem a (by simp)) c).2 ⟨hmem c (by simp), hac⟩
    obtain rfl : b = c := Option.some.inj (hnext.symm.trans hc)
    exact ⟨l, l', by simp [heq]⟩

section

variable {roots : List α} (hroots : ∀ a, a ∈ roots ↔ IsRoot s R a) (hnodup : roots.Nodup)
include hroots

theorem subset_rootPaths (h : Links s R next) :
    (roots.map (pathFrom next (s.length + 1))).flatten ⊆ s := by
  intro x hx
  obtain ⟨p, hp, hxp⟩ := List.mem_flatten.1 hx
  obtain ⟨r, hr, rfl⟩ := List.mem_map.1 hp
  exact (h.pathFrom_spec _ ((hroots r).1 hr).1).2 x hxp

include hnodup

/-- The paths from the roots do not meet. -/
theorem nodup_rootPaths (h : Links s R next) :
    (roots.map (pathFrom next (s.length + 1))).flatten.Nodup := by
  refine List.nodup_flatten.2 ⟨fun p hp => ?_, ?_⟩
  · obtain ⟨r, hr, rfl⟩ := List.mem_map.1 hp
    exact (h.pathFrom_root ((hroots r).1 hr)).1
  · rw [List.pairwise_map]
    refine hnodup.pairwise_of_forall_ne fun r hr r' hr' hne x hx hx' => hne ?_
    obtain ⟨hchain, hmem⟩ := h.pathFrom_spec (s.length + 1) ((hroots r).1 hr).1
    obtain ⟨hchain', hmem'⟩ := h.pathFrom_spec (s.length + 1) ((hroots r').1 hr').1
    have hhead : ∀ r, (pathFrom next (s.length + 1) r).head? = some r := fun r => rfl
    obtain ⟨l, m, heq⟩ := List.append_of_mem hx
    obtain ⟨l', m', heq'⟩ := List.append_of_mem hx'
    have hh := hhead r
    have hh' := hhead r'
    rw [heq, List.append_cons] at hchain hmem hh
    rw [heq', List.append_cons] at hchain' hmem' hh'
    rw [List.head?_append_of_ne_nil _ (by simp)] at hh hh'
    have hl : l = l' := by
      refine h.eq_of_isChain hchain.left_of_append hchain'.left_of_append
        (fun y hy => hmem y (List.mem_append_left _ hy))
        (fun y hy => hmem' y (List.mem_append_left _ hy)) ?_ ?_
      · rw [hh]
        rintro _ ⟨⟩
        exact (hroots r).1 hr
      · rw [hh']
        rintro _ ⟨⟩
        exact (hroots r').1 hr'
    rw [hl, hh'] at hh
    exact (Option.some.inj hh).symm

/-- **The paths from the roots split `s` if they hold enough elements.** -/
theorem splits_rootPaths (h : Links s R next)
    (hlen : (roots.map (pathFrom next (s.length + 1))).flatten.length = s.length) :
    Splits s R (roots.map (pathFrom next (s.length + 1))) := by
  have hperm := ((h.nodup_rootPaths hroots hnodup).subperm
    (h.subset_rootPaths hroots)).perm_of_length_le hlen.ge
  refine ⟨hperm, ?_, fun p hp => ?_, fun a ha b hb hab => ?_⟩
  · rw [List.mem_map]
    rintro ⟨r, -, hnil⟩
    simp [pathFrom] at hnil
  · obtain ⟨r, hr, rfl⟩ := List.mem_map.1 hp
    exact (h.pathFrom_spec _ ((hroots r).1 hr).1).1
  · obtain ⟨p, hp, hap⟩ := List.mem_flatten.1 (hperm.mem_iff.2 ha)
    obtain ⟨r, hr, rfl⟩ := List.mem_map.1 hp
    exact ⟨_, hp, h.infix_pathFrom ((hroots r).1 hr) hap hb hab⟩

/-- **They hold enough if any paths split `s`**: the others would form rings. -/
theorem length_rootPaths (h : Links s R next) {paths : List (List α)} (hsplit : Splits s R paths) :
    (roots.map (pathFrom next (s.length + 1))).flatten.length = s.length := by
  have hle := ((h.nodup_rootPaths hroots hnodup).subperm
    (h.subset_rootPaths hroots)).length_le
  refine le_antisymm hle (h.nodup.subperm fun a ha => ?_).length_le
  obtain ⟨p, hp, hap⟩ := hsplit.mem_iff.1 ha
  obtain ⟨r, t, rfl⟩ := List.exists_cons_of_ne_nil (l := p) (by rintro rfl; exact hsplit.ne_nil hp)
  have hroot : IsRoot s R r := (hsplit.isRoot_iff h.nodup).2 ⟨_, hp, rfl⟩
  refine List.mem_flatten.2 ⟨_, List.mem_map_of_mem ((hroots r).2 hroot), ?_⟩
  -- along the path, from its root on
  have hmem : ∀ x ∈ r :: t, x ∈ s := fun x hx => hsplit.mem_iff.2 ⟨_, hp, hx⟩
  refine List.IsChain.induction (fun x => x ∈ pathFrom next (s.length + 1) r) (r :: t)
    (r := fun x y => y ∈ s ∧ R x y) ?_ ?_ ?_ a hap
  · exact (hsplit.linked _ hp).imp_of_mem_imp fun x y _ hy hxy => ⟨hmem y hy, hxy⟩
  · rintro x y ⟨hy, hxy⟩ hx
    exact (h.infix_pathFrom hroot hx hy hxy).mem (by simp)
  · intro hne
    simp [pathFrom]

end

end Links

end FaultFlow.Lib
