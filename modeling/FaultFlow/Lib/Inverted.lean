/-
# Inverted indices

A table gives rows by their keys; each row mentions some tokens.  The inverted
index of the table lists, for a token, the keys of the rows that mention it
(`Inverts`).  It is kept while rows are added (`Inverts.index`), taken out
(`Inverts.unindex`), and while one token takes the place of another
(`Inverts.rewireRows`), which visits the listed rows only.
-/

import Mathlib.Data.List.Basic
import Mathlib.Data.List.Nodup
import Mathlib.Logic.Function.Basic
import FaultFlow.Lib.Loop

namespace FaultFlow.Lib

universe u

variable {M κ α β : Type u} [DecidableEq κ] [DecidableEq α] {tokens : β → List α}

/-- List a key under a token. -/
def addLoc (locs : α → List κ) (a : α) (x : κ) : α → List κ :=
  Function.update locs a ((locs a).insert x)

/-- Take a key from the list of a token. -/
def discardLoc (locs : α → List κ) (a : α) (x : κ) : α → List κ :=
  Function.update locs a ((locs a).erase x)

variable (tokens) in
/-- The index lists exactly the rows that mention a token, each once. -/
structure Inverts (get : κ → Option β) (locs : α → List κ) : Prop where
  nodup : ∀ a, (locs a).Nodup
  mem : ∀ a x, x ∈ locs a ↔ ∃ b, get x = some b ∧ a ∈ tokens b

/-! ### Rows come and go -/

variable {locs : α → List κ} {a a' : α} {x x' : κ} {get get' : κ → Option β}

/-- The location is added, and no other. -/
theorem mem_addLoc : x' ∈ addLoc locs a x a' ↔ x' ∈ locs a' ∨ (a' = a ∧ x' = x) := by
  by_cases ha : a' = a
  · subst ha
    simp [addLoc, or_comm]
  · simp [addLoc, ha]

/-- Adding keeps the lists free of repetition. -/
theorem nodup_addLoc (h : ∀ a, (locs a).Nodup) (a : α) (x : κ) (a' : α) :
    (addLoc locs a x a').Nodup := by
  by_cases ha : a' = a
  · subst ha
    simpa [addLoc] using (h a').insert
  · simpa [addLoc, ha] using h a'

/-- The location is gone, and no other. -/
theorem mem_discardLoc (h : ∀ a, (locs a).Nodup) :
    x' ∈ discardLoc locs a x a' ↔ x' ∈ locs a' ∧ ¬ (a' = a ∧ x' = x) := by
  by_cases ha : a' = a
  · subst ha
    simp [discardLoc, (h a').mem_erase_iff, and_comm]
  · simp [discardLoc, ha]

/-- So does discarding. -/
theorem nodup_discardLoc (h : ∀ a, (locs a).Nodup) (a : α) (x : κ) (a' : α) :
    (discardLoc locs a x a').Nodup := by
  by_cases ha : a' = a
  · subst ha
    simpa [discardLoc] using (h a').erase x
  · simpa [discardLoc, ha] using h a'

variable (tokens) in
/-- The tokens of some rows, with the keys. -/
def mentions (rows : List (κ × β)) : List (κ × α) :=
  rows.flatMap fun r => (tokens r.2).map (r.1, ·)

variable (tokens) in
/-- List some rows. -/
def indexRows (locs : α → List κ) (rows : List (κ × β)) : α → List κ :=
  (mentions tokens rows).foldl (fun locs p => addLoc locs p.2 p.1) locs

variable (tokens) in
/-- Take some rows from the lists. -/
def unindexRows (locs : α → List κ) (rows : List (κ × β)) : α → List κ :=
  (mentions tokens rows).foldl (fun locs p => discardLoc locs p.2 p.1) locs

variable {rows : List (κ × β)}

omit [DecidableEq κ] [DecidableEq α] in
/-- The rows that mention a token. -/
theorem mem_mentions : (x, a) ∈ mentions tokens rows ↔ ∃ b, (x, b) ∈ rows ∧ a ∈ tokens b := by
  simp only [mentions, List.mem_flatMap, List.mem_map, Prod.mk.injEq]
  constructor
  · rintro ⟨r, hr, _, ha, rfl, rfl⟩
    exact ⟨r.2, hr, ha⟩
  · rintro ⟨b, hb, ha⟩
    exact ⟨(x, b), hb, a, ha, rfl, rfl⟩

/-- **Rows are added.** -/
theorem Inverts.index (h : Inverts tokens get locs)
    (hget : ∀ x b, get' x = some b ↔ get x = some b ∨ (x, b) ∈ rows) :
    Inverts tokens get' (indexRows tokens locs rows) := by
  have key : (∀ a, (indexRows tokens locs rows a).Nodup) ∧ ∀ a x,
      x ∈ indexRows tokens locs rows a ↔ x ∈ locs a ∨ (x, a) ∈ mentions tokens rows := by
    refine foldl_visited (fun (pre : List (κ × α)) (ls : α → List κ) => (∀ a, (ls a).Nodup) ∧
      ∀ a x, x ∈ ls a ↔ x ∈ locs a ∨ (x, a) ∈ pre) ⟨h.nodup, by simp⟩ ?_
    rintro pre ⟨x, a⟩ post ls - ⟨hnd, hmem⟩
    refine ⟨nodup_addLoc hnd a x, fun a' y => ?_⟩
    rw [mem_addLoc, hmem, List.mem_append, List.mem_singleton, Prod.mk.injEq, or_assoc,
      and_comm (a := a' = a)]
  refine ⟨key.1, fun a x => ?_⟩
  rw [key.2, h.mem, mem_mentions, ← exists_or]
  refine exists_congr fun b => ?_
  rw [hget, or_and_right]

/-- **Rows are taken out.** -/
theorem Inverts.unindex (h : Inverts tokens get locs)
    (hrows : ∀ x b, (x, b) ∈ rows → get x = some b)
    (hget : ∀ x b, get' x = some b ↔ get x = some b ∧ (x, b) ∉ rows) :
    Inverts tokens get' (unindexRows tokens locs rows) := by
  have key : (∀ a, (unindexRows tokens locs rows a).Nodup) ∧ ∀ a x,
      x ∈ unindexRows tokens locs rows a ↔ x ∈ locs a ∧ (x, a) ∉ mentions tokens rows := by
    refine foldl_visited (fun (pre : List (κ × α)) (ls : α → List κ) => (∀ a, (ls a).Nodup) ∧
      ∀ a x, x ∈ ls a ↔ x ∈ locs a ∧ (x, a) ∉ pre) ⟨h.nodup, by simp⟩ ?_
    rintro pre ⟨x, a⟩ post ls - ⟨hnd, hmem⟩
    refine ⟨nodup_discardLoc hnd a x, fun a' y => ?_⟩
    rw [mem_discardLoc hnd, hmem, List.mem_append, List.mem_singleton, Prod.mk.injEq, not_or,
      and_assoc, and_comm (a := a' = a)]
  refine ⟨key.1, fun a x => ?_⟩
  rw [key.2, h.mem, mem_mentions]
  constructor
  · rintro ⟨⟨b, hb, ha⟩, hnot⟩
    exact ⟨b, (hget x b).2 ⟨hb, fun hmem => hnot ⟨b, hmem, ha⟩⟩, ha⟩
  · rintro ⟨b, hb, ha⟩
    obtain ⟨hb, hnot⟩ := (hget x b).1 hb
    refine ⟨⟨b, hb, ha⟩, fun ⟨c, hc, _⟩ => hnot ?_⟩
    have heq : c = b := Option.some.inj ((hrows x c hc).symm.trans hb)
    rwa [heq] at hc

/-! ### One token for another -/

/-- Visit the rows listed under `old`: one that is kept stays listed there, any
other that the table has is changed and listed under `new`. -/
def rewireRows (get : M → κ → Option β) (set : M → κ → β → M) (change : β → β) (keeps : κ → Bool)
    (old new : α) (st : M × (α → List κ)) : M × (α → List κ) :=
  (st.2 old).foldl (fun st x =>
    if keeps x then (st.1, addLoc st.2 old x)
    else
      match get st.1 x with
      | none => st
      | some b => (set st.1 x (change b), addLoc st.2 new x))
    (st.1, Function.update st.2 old [])

/-- What `set` does to the rows. -/
def Sets (get : M → κ → Option β) (set : M → κ → β → M) : Prop :=
  ∀ m x b y, (get m x).isSome → get (set m x b) y = if y = x then some b else get m y

variable {get : M → κ → Option β} {set : M → κ → β → M} {change : β → β} {keeps : κ → Bool}
  {old new : α}

/-- Rewiring leaves alone what setting a row does. -/
theorem rewireRows_frame {γ : Type*} (part : M → γ) (hset : ∀ m x b, part (set m x b) = part m)
    (st : M × (α → List κ)) :
    part (rewireRows get set change keeps old new st).1 = part st.1 := by
  refine foldl_invariant (fun s : M × (α → List κ) => part s.1 = part st.1) rfl ?_
  intro s x _ hs
  split
  · exact hs
  · split
    · exact hs
    · exact (hset _ _ _).trans hs

/-- **One token takes the place of another**: the rows that mention it are
changed, but for those that are kept, and the index follows. -/
theorem Inverts.rewireRows (keeps : κ → Bool) (hset : Sets get set)
    (hchange : ∀ b, tokens (change b) = (tokens b).map fun a => if a = old then new else a) {m : M}
    (h : Inverts tokens (get m) locs) :
    (∀ x, get (rewireRows get set change keeps old new (m, locs)).1 x =
        (get m x).map fun b => if old ∈ tokens b ∧ keeps x = false then change b else b) ∧
      Inverts tokens (get (Lib.rewireRows get set change keeps old new (m, locs)).1)
        (Lib.rewireRows get set change keeps old new (m, locs)).2 := by
  set out := Lib.rewireRows get set change keeps old new (m, locs) with hout
  -- what holds when the keys of `pre` have been visited
  have key : (∀ x, get out.1 x = (get m x).map fun b =>
        if x ∈ locs old ∧ keeps x = false then change b else b) ∧
      (∀ a, (out.2 a).Nodup) ∧ ∀ a x, x ∈ out.2 a ↔
        (a ≠ old ∧ x ∈ locs a) ∨ (x ∈ locs old ∧ a = if keeps x then old else new) := by
    refine foldl_visited (fun (pre : List κ) (st : M × (α → List κ)) =>
      (∀ x, get st.1 x = (get m x).map fun b =>
        if x ∈ pre ∧ keeps x = false then change b else b) ∧
      (∀ a, (st.2 a).Nodup) ∧ ∀ a x, x ∈ st.2 a ↔
        (a ≠ old ∧ x ∈ locs a) ∨ (x ∈ pre ∧ a = if keeps x then old else new)) ⟨?_, ?_, ?_⟩ ?_
    · simp
    · intro a
      by_cases ha : a = old
      · simp [ha]
      · simpa [ha] using h.nodup a
    · intro a x
      by_cases ha : a = old
      · simp [ha]
      · simp [ha]
    · rintro pre x post st hl ⟨hget, hnd, hmem⟩
      have hl : locs old = pre ++ x :: post := hl
      have hx : x ∉ pre := by
        have hnodup := h.nodup old
        rw [hl, List.nodup_append] at hnodup
        exact fun hpre => hnodup.2.2 x hpre x List.mem_cons_self rfl
      obtain ⟨b, hb, -⟩ := (h.mem old x).1 (by simp [hl])
      cases hk : keeps x with
      | true =>
        refine ⟨fun y => ?_, nodup_addLoc hnd old x, fun a y => ?_⟩
        · rw [if_pos rfl, hget]
          by_cases hy : y = x
          · simp [hy, hk]
          · simp [hy]
        · rw [if_pos rfl, mem_addLoc, hmem]
          by_cases hy : y = x
          · simp [hy, hk, hx]
          · simp [hy]
      | false =>
        have hgetx : get st.1 x = some b := by simp [hget, hb, hx]
        rw [if_neg (by simp), hgetx]
        refine ⟨fun y => ?_, nodup_addLoc hnd new x, fun a y => ?_⟩
        · rw [hset _ _ _ _ (by simp [hgetx]), hget]
          by_cases hy : y = x
          · simp [hy, hk, hb]
          · simp [hy]
        · rw [mem_addLoc, hmem]
          by_cases hy : y = x
          · simp [hy, hk, hx]
          · simp [hy]
  obtain ⟨hget, hnd, hmem⟩ := key
  have hrow : ∀ x b, get m x = some b → (x ∈ locs old ↔ old ∈ tokens b) := by
    intro x b hb
    rw [h.mem, hb]
    simp
  have hget' : ∀ x, get out.1 x =
      (get m x).map fun b => if old ∈ tokens b ∧ keeps x = false then change b else b := by
    intro x
    rw [hget]
    cases hb : get m x with
    | none => rfl
    | some b => simp only [Option.map_some, hrow x b hb]
  refine ⟨hget', hnd, fun a x => ?_⟩
  rw [hmem, h.mem, h.mem, hget']
  cases hb : get m x with
  | none => simp
  | some b =>
    simp only [Option.some.injEq, exists_eq_left', Option.map_some]
    by_cases hold : old ∈ tokens b
    · cases keeps x with
      | true =>
        simp only [hold, if_true, true_and, Bool.true_eq_false, and_false, if_false]
        by_cases ha : a = old
        · simp [ha, hold]
        · simp [ha]
      | false =>
        simp only [hold, true_and, if_true, Bool.false_eq_true, if_false, hchange, List.mem_map]
        constructor
        · rintro (⟨ha, hmem⟩ | rfl)
          · exact ⟨a, hmem, if_neg ha⟩
          · exact ⟨old, hold, if_pos rfl⟩
        · rintro ⟨c, hc, hca⟩
          by_cases hco : c = old
          · exact .inr (by rw [← hca, if_pos hco])
          · rw [if_neg hco] at hca
            exact .inl ⟨hca ▸ hco, hca ▸ hc⟩
    · simp only [hold, false_and, if_false, or_false]
      exact ⟨And.right, fun ha => ⟨fun e => hold (e ▸ ha), ha⟩⟩

end FaultFlow.Lib
