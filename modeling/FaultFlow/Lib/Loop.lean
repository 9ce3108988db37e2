/-
# Loops that may fail

A loop of a program is a fold, and a loop whose body may throw is a monadic
fold into `Except`.  This file has the two rules such loops are reasoned with:
the inversion of `>>=` (`bind_eq_ok`), and the invariant rule, over the part of
the list already visited (`foldlM_visited`) or over the state alone
(`foldlM_invariant`).  `getD_foldl_insert` is the rule for a loop that fills a map.
-/

import Mathlib.Data.List.Forall2
import Mathlib.Tactic.Tauto
import Std.Data.TreeMap.Lemmas
import Std.Data.TreeSet.Lemmas

namespace FaultFlow.Lib

universe u v

variable {ε : Type v} {α β : Type u} {x : Except ε α} {f : α → Except ε β} {b : β}

/-- A sequence of two steps returns when the first returns and the second
returns from there. -/
theorem bind_eq_ok :
    x >>= f = .ok b ↔ ∃ a, x = .ok a ∧ f a = .ok b := by
  cases x with
  | error e => simp [bind, Except.bind]
  | ok a => simp [bind, Except.bind]

/-- Renaming errors makes no result. -/
theorem eq_ok_of_mapError {ε' : Type*} {f : ε → ε'} {a : α} (h : x.mapError f = .ok a) :
    x = .ok a := by
  cases x with
  | error e => cases h
  | ok b =>
    cases h
    rfl

/-- A sequence of two steps throws what its first or its second step throws. -/
theorem bind_eq_error {e : ε} :
    x >>= f = .error e ↔ x = .error e ∨ ∃ a, x = .ok a ∧ f a = .error e := by
  cases x with
  | error e' => simp [bind, Except.bind]
  | ok a => simp [bind, Except.bind]

variable {l : List α}

/-- **The invariant rule, over the visited part.**  `I pre b` relates the state
to the elements visited so far. -/
theorem foldlM_visited (I : List α → β → Prop) {f : β → α → Except ε β} {b b' : β}
    (h : l.foldlM f b = .ok b') (init : I [] b)
    (step : ∀ pre a post c c', l = pre ++ a :: post → I pre c → f c a = .ok c' →
      I (pre ++ [a]) c') : I l b' := by
  suffices H : ∀ post pre c, l = pre ++ post → I pre c → post.foldlM f c = .ok b' → I l b' from
    H l [] b rfl init h
  intro post
  induction post with
  | nil =>
    intro pre c hl hc hr
    cases hr
    simpa [hl] using hc
  | cons a post ih =>
    intro pre c hl hc hr
    rw [List.foldlM_cons] at hr
    obtain ⟨c', hc', hr⟩ := bind_eq_ok.1 hr
    exact ih (pre ++ [a]) c' (by simp [hl]) (step pre a post c c' hl hc hc') hr

/-- **The invariant rule.** -/
theorem foldlM_invariant (I : β → Prop) {f : β → α → Except ε β} {b b' : β}
    (h : l.foldlM f b = .ok b') (init : I b) (step : ∀ a ∈ l, ∀ c c', I c → f c a = .ok c' → I c') :
    I b' :=
  foldlM_visited (fun _ => I) h init fun _ a _ c c' hl hc hc' =>
    step a (by simp [hl]) c c' hc hc'

/-- **The progress rule.**  A loop whose body returns wherever the invariant
holds returns. -/
theorem exists_foldlM (I : List α → β → Prop) {f : β → α → Except ε β} (init : I [] b)
    (step : ∀ pre a post c, l = pre ++ a :: post → I pre c →
      ∃ c', f c a = .ok c' ∧ I (pre ++ [a]) c') :
    ∃ b', l.foldlM f b = .ok b' ∧ I l b' := by
  suffices H : ∀ post pre c, l = pre ++ post → I pre c → ∃ b', post.foldlM f c = .ok b' ∧ I l b' from
    H l [] b rfl init
  intro post
  induction post with
  | nil =>
    intro pre c hl hc
    exact ⟨c, rfl, by simpa [hl] using hc⟩
  | cons a post ih =>
    intro pre c hl hc
    obtain ⟨c', hc', hI⟩ := step pre a post c hl hc
    obtain ⟨b', hb', hI'⟩ := ih (pre ++ [a]) c' (by simp [hl]) hI
    exact ⟨b', by rw [List.foldlM_cons, hc']; exact hb', hI'⟩

/-- How a computation ends: with a result in `Q`, or with an error in `E`. -/
def Ends (x : Except ε α) (Q : α → Prop) (E : ε → Prop) : Prop :=
  match x with
  | .ok a => Q a
  | .error e => E e

theorem Ends.mono {P Q : α → Prop} {D E : ε → Prop} (hx : Ends x P D) (h : ∀ a, P a → Q a)
    (he : ∀ e, D e → E e) : Ends x Q E := by
  cases x with
  | error e => exact he e hx
  | ok a => exact h a hx

variable {E : ε → Prop}

theorem Ends.imp {P Q : α → Prop} (hx : Ends x P E) (h : ∀ a, P a → Q a) : Ends x Q E :=
  hx.mono h fun _ he => he

/-- **The rule of sequence.** -/
theorem Ends.bind {P : α → Prop} {Q : β → Prop} (hx : Ends x P E) (hf : ∀ a, P a → Ends (f a) Q E) :
    Ends (x >>= f) Q E := by
  cases x with
  | error e => exact hx
  | ok a => exact hf a hx

/-- **The rule of loops**, over the visited part. -/
theorem Ends.foldlM (I : List α → β → Prop) {f : β → α → Except ε β} (init : I [] b)
    (step : ∀ pre a post c, l = pre ++ a :: post → I pre c → Ends (f c a) (I (pre ++ [a])) E) :
    Ends (l.foldlM f b) (I l) E := by
  suffices H : ∀ post pre c, l = pre ++ post → I pre c → Ends (post.foldlM f c) (I l) E from
    H l [] b rfl init
  intro post
  induction post with
  | nil =>
    intro pre c hl hc
    rw [List.append_nil] at hl
    exact hl ▸ hc
  | cons a post ih =>
    intro pre c hl hc
    rw [List.foldlM_cons]
    exact (step pre a post c hl hc).bind fun c' hc' => ih (pre ++ [a]) c' (by simp [hl]) hc'

/-- What a loop emits, turn by turn. -/
def emitted {ω : Type*} (step : β → α → Except ε β) (emit : β → α → List ω) : β → List α → List ω
  | _, [] => []
  | b, a :: l => emit b a ++ match step b a with
    | .ok b' => emitted step emit b' l
    | .error _ => []

/-- **The invariant rule, over what was emitted** and what is still to visit. -/
theorem foldlM_emitted {ω : Type*} (I : List ω → List α → β → Prop) (emit : β → α → List ω)
    {f : β → α → Except ε β} {b b' : β} (h : l.foldlM f b = .ok b') (init : I [] l b)
    (step : ∀ log a rest c c', I log (a :: rest) c → f c a = .ok c' → I (log ++ emit c a) rest c') :
    I (emitted f emit b l) [] b' := by
  suffices H : ∀ log, I log l b → I (log ++ emitted f emit b l) [] b' by simpa using H [] init
  clear init
  induction l generalizing b with
  | nil =>
    intro log hlog
    cases h
    simpa [emitted] using hlog
  | cons a l ih =>
    intro log hlog
    rw [List.foldlM_cons] at h
    obtain ⟨c, hc, h⟩ := bind_eq_ok.1 h
    have hnext := ih h _ (step log a l b c hlog hc)
    simpa [emitted, hc] using hnext

/-- Two computations that end alike: with related results, or with one error. -/
def Alike {γ : Type*} (R : α → γ → Prop) : Except ε α → Except ε γ → Prop
  | .ok a, .ok c => R a c
  | .error e, .error e' => e = e'
  | _, _ => False

theorem Alike.refl (x : Except ε α) : Alike (· = ·) x x := by
  cases x <;> exact Eq.refl _

theorem Alike.imp {γ : Type*} {R S : α → γ → Prop} {y : Except ε γ} (h : Alike R x y)
    (hRS : ∀ a c, x = .ok a → y = .ok c → R a c → S a c) : Alike S x y := by
  cases x <;> cases y <;> first | exact h.elim | exact h | exact hRS _ _ rfl rfl h

/-- **The rule of sequence for two computations.** -/
theorem Alike.bind {α' β' : Type u} {R : α → α' → Prop} {S : β → β' → Prop} {y : Except ε α'}
    {g : α' → Except ε β'} (h : Alike R x y) (hfg : ∀ a a', R a a' → Alike S (f a) (g a')) :
    Alike S (x >>= f) (y >>= g) := by
  cases x <;> cases y <;> first | exact h.elim | exact h | exact hfg _ _ h

/-- **The rule of two loops** over one list, with what the first emits. -/
theorem Alike.foldlM {ω : Type*} {β' : Type u} (R : List ω → List α → β → β' → Prop)
    (emit : β → α → List ω) (P : ω → Prop) {f : β → α → Except ε β} {g : β' → α → Except ε β'}
    {b' : β'} (hemit : ∀ w ∈ emitted f emit b l, P w) (init : R [] l b b')
    (step : ∀ log a rest c c', (∀ w ∈ log ++ emit c a, P w) → R log (a :: rest) c c' →
      Alike (R (log ++ emit c a) rest) (f c a) (g c' a)) :
    Alike (fun c c' => ∃ log, R log [] c c') (l.foldlM f b) (l.foldlM g b') := by
  suffices H : ∀ log, (∀ w ∈ log, P w) → R log l b b' →
      Alike (fun c c' => ∃ log, R log [] c c') (l.foldlM f b) (l.foldlM g b') from
    H [] (by simp) init
  clear init
  induction l generalizing b b' with
  | nil => exact fun log _ hR => ⟨log, hR⟩
  | cons a l ih =>
    intro log hlog hR
    have hmore : ∀ w ∈ log ++ emit b a, P w := by
      intro w hw
      rcases List.mem_append.1 hw with hw | hw
      · exact hlog w hw
      · exact hemit w (List.mem_append_left _ hw)
    have hturn := step log a l b b' hmore hR
    rw [List.foldlM_cons, List.foldlM_cons]
    cases hf : f b a with
    | error e =>
      rw [hf] at hturn
      cases hg : g b' a with
      | error e' =>
        rw [hg] at hturn
        exact hturn
      | ok c' =>
        rw [hg] at hturn
        exact hturn.elim
    | ok c =>
      rw [hf] at hturn
      cases hg : g b' a with
      | error e' =>
        rw [hg] at hturn
        exact hturn.elim
      | ok c' =>
        rw [hg] at hturn
        refine ih (fun w hw => hemit w ?_) _ hmore hturn
        rw [emitted, hf]
        exact List.mem_append_right _ hw

variable {bs : List β}

/-- A loop that collects results returns them in the order of the list. -/
theorem mapM_eq_ok_iff_forall₂ :
    l.mapM f = .ok bs ↔ List.Forall₂ (fun a b => f a = .ok b) l bs := by
  induction l generalizing bs with
  | nil =>
    rw [List.mapM_nil, List.forall₂_nil_left_iff]
    exact ⟨fun h => (Except.ok.inj h).symm, fun h => congrArg Except.ok h.symm⟩
  | cons a l ih =>
    rw [List.mapM_cons, List.forall₂_cons_left_iff]
    constructor
    · intro h
      obtain ⟨b, hb, h⟩ := bind_eq_ok.1 h
      obtain ⟨cs, hcs, h⟩ := bind_eq_ok.1 h
      exact ⟨b, cs, hb, ih.1 hcs, (Except.ok.inj h).symm⟩
    · rintro ⟨b, cs, hb, hcs, rfl⟩
      rw [hb, ih.2 hcs]
      rfl

theorem map_eq_map_of_forall₂ {γ : Type*} {f : α → γ} {g : β → γ} {l' : List β}
    (h : List.Forall₂ (fun a b => f a = g b) l l') : l.map f = l'.map g := by
  induction h with
  | nil => rfl
  | cons hab _ ih => rw [List.map_cons, List.map_cons, hab, ih]

/-- Every element on the right has one on the left. -/
theorem exists_of_mem_right {R : α → β → Prop} {l' : List β} (h : List.Forall₂ R l l') (hb : b ∈ l') :
    ∃ a ∈ l, R a b := by
  induction h with
  | nil => exact absurd hb List.not_mem_nil
  | cons hab _ ih =>
    rcases List.mem_cons.1 hb with rfl | hb
    · exact ⟨_, List.mem_cons_self, hab⟩
    · obtain ⟨a, ha, hr⟩ := ih hb
      exact ⟨a, List.mem_cons_of_mem _ ha, hr⟩

/-- The result at an index is that of the element at that index. -/
theorem getElem?_of_mapM_eq_ok (h : l.mapM f = .ok bs) {k : ℕ} {a : α} (hk : l[k]? = some a) :
    ∃ b, f a = .ok b ∧ bs[k]? = some b := by
  rw [mapM_eq_ok_iff_forall₂] at h
  induction h generalizing k with
  | nil => simp at hk
  | cons hb _ ih =>
    cases k with
    | zero =>
      cases hk
      exact ⟨_, hb, rfl⟩
    | succ k => exact ih hk

/-- A loop over a list of lists is a loop over their elements. -/
theorem mapM_flatten (f : α → Except ε β) (ls : List (List α)) :
    ls.flatten.mapM f = (do
      let bs ← ls.mapM fun l => l.mapM f
      return bs.flatten) := by
  induction ls with
  | nil => rfl
  | cons l ls ih =>
    rw [List.flatten_cons, List.mapM_append, ih, List.mapM_cons]
    simp only [bind_assoc, pure_bind, List.flatten_cons]

theorem mapM_congr {f f' : α → Except ε β} (h : ∀ a ∈ l, f a = f' a) :
    l.mapM f = l.mapM f' := by
  induction l with
  | nil => rfl
  | cons a l ih =>
    rw [List.mapM_cons, List.mapM_cons, h a List.mem_cons_self,
      ih fun b hb => h b (List.mem_cons_of_mem _ hb)]

theorem exists_mapM_eq_ok (h : ∀ a ∈ l, ∃ b, f a = .ok b) :
    ∃ bs, l.mapM f = .ok bs := by
  induction l with
  | nil => exact ⟨[], rfl⟩
  | cons a l ih =>
    obtain ⟨b, hb⟩ := h a List.mem_cons_self
    obtain ⟨bs, hbs⟩ := ih fun c hc => h c (List.mem_cons_of_mem _ hc)
    exact ⟨b :: bs, by rw [List.mapM_cons, hb, hbs]; rfl⟩

/-- What a loop that collects results returns. -/
theorem mem_of_mapM_eq_ok (h : l.mapM f = .ok bs) : b ∈ bs ↔ ∃ a ∈ l, f a = .ok b := by
  induction l generalizing bs with
  | nil =>
    cases h
    simp
  | cons a l ih =>
    rw [List.mapM_cons] at h
    obtain ⟨c, hc, h⟩ := bind_eq_ok.1 h
    obtain ⟨cs, hcs, h⟩ := bind_eq_ok.1 h
    cases h
    rw [List.mem_cons, ih hcs, List.exists_mem_cons_iff, hc]
    simp [eq_comm]

/-- A loop that collects results throws what one of its turns throws. -/
theorem exists_of_mapM_eq_error {e : ε} (h : l.mapM f = .error e) :
    ∃ a ∈ l, f a = .error e := by
  induction l with
  | nil => cases h
  | cons a l ih =>
    rw [List.mapM_cons] at h
    rcases bind_eq_error.1 h with ha | ⟨b, -, h⟩
    · exact ⟨a, List.mem_cons_self, ha⟩
    · rcases bind_eq_error.1 h with hl | ⟨bs, -, h⟩
      · obtain ⟨c, hc, hce⟩ := ih hl
        exact ⟨c, List.mem_cons_of_mem _ hc, hce⟩
      · cases h

/-- A loop that collects results returns them all when no turn fails. -/
theorem mapM_eq_ok {g : α → β} (h : ∀ a ∈ l, f a = .ok (g a)) :
    l.mapM f = .ok (l.map g) := by
  induction l with
  | nil => rfl
  | cons a l ih =>
    rw [List.mapM_cons, h a List.mem_cons_self, ih fun b hb => h b (List.mem_cons_of_mem _ hb)]
    rfl

/-- The invariant rule of a loop that cannot fail, over the visited part. -/
theorem foldl_visited (I : List α → β → Prop) {f : β → α → β} (init : I [] b)
    (step : ∀ pre a post c, l = pre ++ a :: post → I pre c → I (pre ++ [a]) (f c a)) :
    I l (l.foldl f b) := by
  suffices H : ∀ post pre c, l = pre ++ post → I pre c → I l (post.foldl f c) from
    H l [] b rfl init
  intro post
  induction post with
  | nil =>
    intro pre c hl hc
    simpa [hl] using hc
  | cons a post ih =>
    intro pre c hl hc
    exact ih (pre ++ [a]) (f c a) (by simp [hl]) (step pre a post c hl hc)

/-- The invariant rule of a loop that cannot fail. -/
theorem foldl_invariant (I : β → Prop) {f : β → α → β} (init : I b)
    (step : ∀ a ∈ l, ∀ c, I c → I (f c a)) : I (l.foldl f b) :=
  foldl_visited (fun _ => I) init fun _ a _ c hl hc => step a (by simp [hl]) c hc

/-- A loop that only appends, and never fails, appends what each element gives. -/
theorem foldlM_append_ok {f : List β → α → Except ε (List β)} {g : α → List β}
    (h : ∀ a ∈ l, ∀ acc, f acc a = .ok (acc ++ g a)) (acc : List β) :
    l.foldlM f acc = .ok (acc ++ l.flatMap g) := by
  induction l generalizing acc with
  | nil => simp [pure, Except.pure]
  | cons a l ih =>
    rw [List.foldlM_cons, h a (by simp), List.flatMap_cons, ← List.append_assoc]
    exact ih (fun b hb => h b (List.mem_cons_of_mem _ hb)) _

/-- A map built by insertions holds, under a key whose insertions agree, their
value. -/
theorem getD_foldl_insert {κ γ : Type*} [Ord κ] [Std.TransOrd κ] [Std.LawfulEqOrd κ] (key : α → κ)
    (val : α → γ) {m : Std.TreeMap κ γ} {k : κ} {c d : γ} (hex : ∃ a ∈ l, key a = k)
    (hval : ∀ a ∈ l, key a = k → val a = c) :
    (l.foldl (fun m a => m.insert (key a) (val a)) m).getD k d = c := by
  suffices H : ∀ (l : List α) (m : Std.TreeMap κ γ), (m.getD k d = c ∨ ∃ a ∈ l, key a = k) →
      (∀ a ∈ l, key a = k → val a = c) →
      (l.foldl (fun m a => m.insert (key a) (val a)) m).getD k d = c from
    H l m (.inr hex) hval
  clear hex hval m
  intro l
  induction l with
  | nil => exact fun m hm _ => hm.resolve_right (by simp)
  | cons a l ih =>
    intro m hm hval
    refine ih _ ?_ fun b hb => hval b (List.mem_cons_of_mem a hb)
    show (m.insert (key a) (val a)).getD k d = c ∨ _
    by_cases hk : key a = k
    · left
      rw [hk, Std.TreeMap.getD_insert_self]
      exact hval a List.mem_cons_self hk
    · rw [Std.TreeMap.getD_insert, if_neg (by simpa using hk)]
      exact hm.imp_right fun ⟨b, hb, hbk⟩ =>
        ⟨b, (List.mem_cons.1 hb).resolve_left fun hba => hk (hba ▸ hbk), hbk⟩

/-- **A map filled by a loop**, under distinct keys: each element has its value, and the other
keys are as before. -/
theorem getElem?_foldl_insert {κ γ : Type*} [Ord κ] [Std.TransOrd κ] [Std.LawfulEqOrd κ]
    (key : α → κ) (val : α → γ) {m : Std.TreeMap κ γ} (hnd : (l.map key).Nodup) :
    (∀ a ∈ l, (l.foldl (fun m a => m.insert (key a) (val a)) m)[key a]? = some (val a)) ∧
      ∀ k, (∀ a ∈ l, key a ≠ k) → (l.foldl (fun m a => m.insert (key a) (val a)) m)[k]? = m[k]? := by
  induction l generalizing m with
  | nil => simp
  | cons a l ih =>
    obtain ⟨hnot, hnd⟩ := List.nodup_cons.1 hnd
    obtain ⟨hin, hout⟩ := ih (m := m.insert (key a) (val a)) hnd
    rw [List.foldl_cons]
    constructor
    · intro b hb
      rcases List.mem_cons.1 hb with rfl | hb
      · rw [hout (key b) fun a ha heq => hnot (heq ▸ List.mem_map_of_mem ha),
          Std.TreeMap.getElem?_insert_self]
      · exact hin b hb
    · intro k hk
      obtain ⟨hka, hk⟩ := List.forall_mem_cons.1 hk
      rw [hout k hk, Std.TreeMap.getElem?_insert, if_neg (by simpa using hka)]

/-- **A map filled by a loop that may fail**, under distinct keys: each element has its
result, and the other keys are as before. -/
theorem getElem?_foldlM_insert {κ γ : Type u} [Ord κ] [Std.TransOrd κ] [Std.LawfulEqOrd κ]
    (key : α → κ) {f : α → Except ε γ} {m m' : Std.TreeMap κ γ}
    (h : l.foldlM (fun m a => do return m.insert (key a) (← f a)) m = .ok m')
    (hnd : (l.map key).Nodup) :
    (∀ a ∈ l, ∃ c, f a = .ok c ∧ m'[key a]? = some c) ∧
      ∀ k, (∀ a ∈ l, key a ≠ k) → m'[k]? = m[k]? := by
  induction l generalizing m with
  | nil =>
    cases h
    simp
  | cons a l ih =>
    rw [List.foldlM_cons] at h
    obtain ⟨_, hstep, h⟩ := bind_eq_ok.1 h
    obtain ⟨c, hc, hret⟩ := bind_eq_ok.1 hstep
    cases hret
    obtain ⟨hnot, hnd⟩ := List.nodup_cons.1 hnd
    obtain ⟨hin, hout⟩ := ih h hnd
    constructor
    · intro b hb
      rcases List.mem_cons.1 hb with rfl | hb
      · refine ⟨c, hc, ?_⟩
        rw [hout (key b) fun a ha heq => hnot (heq ▸ List.mem_map_of_mem ha),
          Std.TreeMap.getElem?_insert_self]
      · exact hin b hb
    · intro k hk
      obtain ⟨hka, hk⟩ := List.forall_mem_cons.1 hk
      rw [hout k hk, Std.TreeMap.getElem?_insert, if_neg (by simpa using hka)]

/-- What is left of a set from which a loop erases. -/
theorem mem_foldl_erase {κ : Type*} [Ord κ] [Std.TransOrd κ] [Std.LawfulEqOrd κ] (key : α → κ)
    (l : List α) (set : Std.TreeSet κ) (k : κ) :
    k ∈ l.foldl (fun set a => set.erase (key a)) set ↔ k ∈ set ∧ ∀ a ∈ l, key a ≠ k := by
  induction l generalizing set with
  | nil => simp
  | cons a l ih =>
    rw [List.foldl_cons, ih, Std.TreeSet.mem_erase, List.forall_mem_cons, ne_eq,
      Std.LawfulEqCmp.compare_eq_iff_eq]
    tauto

/-- The result of a computation known not to fail. -/
def resultOf : (x : Except ε α) → x.isOk = true → α
  | .ok a, _ => a

theorem eq_ok_resultOf (x : Except ε α) (h : x.isOk = true) : x = .ok (resultOf x h) := by
  cases x with
  | error e => cases h
  | ok a => rfl

end FaultFlow.Lib
