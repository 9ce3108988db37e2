/-
# The batches of a fault list

`src/core/fault/batch/batch_manager.cpp`.  The caller takes one batch after the other,

    while (bm.has_pending()) { b = bm.next_batch(); bm.finish_batch(b, mask); }

and the manager gives the next pending faults the lanes `1`, `2`, and so on.  A batch holds copies;
`finish_batch` finds the fault of a copy as the first one with its net, its type and its lane, and
keeps the faults that are still pending.

The loop ends for every list.  A fault that is not pending keeps the lane it came with, and is
skipped by `next_batch` but not by `finish_batch`: in front of a pending fault of the same net and
type whose lane is that number it is taken in its place (`StaleLane`), and the pending fault comes
again in the next batch.  Everything else is as it should be (`batches_exact_iff`).

A fault is a `CompactFault` with its status.  `std::uint8_t bit` is a natural number; lanes are at
most 63.
-/

import FaultFlow.Sim.LaneLocality

namespace FaultFlow

open Lib

/-- `FaultStatus`. -/
inductive CompactFault.Status where
  | PENDING | DETECTED | UNDETECTED | REDUNDANT
deriving DecidableEq, Repr

/-- A `CompactFault` with the field `status`. -/
structure ScheduledFault extends CompactFault where
  status : CompactFault.Status := .PENDING
deriving DecidableEq

/-- `BatchManager`. -/
structure BatchManager where
  pending : List ScheduledFault
  detected : List ScheduledFault := []
  cursor : ℕ := 0

namespace BatchManager

/-- `BATCH_SIZE`. -/
def batchSize : ℕ := 63

variable (faults : List ScheduledFault) (bm : BatchManager) (batch : FaultBatch)
  (detectedMask : Word)

/-- The constructor. -/
def ofFaults : BatchManager := { pending := faults.filter fun f => f.exclusion = .NONE }

/-- `has_pending`. -/
def hasPending : Bool := bm.cursor < bm.pending.length

/-- The loop of `next_batch`, from the cursor on: the faults with their lanes, the batch, and how
far the cursor has moved. -/
def fill : List ScheduledFault → FaultBatch → List ScheduledFault × FaultBatch × ℕ
  | [], batch => ([], batch, 0)
  | f :: rest, batch =>
    if batchSize ≤ batch.faults.length then (f :: rest, batch, 0)
    else if f.status ≠ .PENDING then
      let r := fill rest batch
      (f :: r.1, r.2.1, r.2.2 + 1)
    else
      let bit := batch.faults.length + 1
      let f := { f with bit := bit, saMask := laneMask bit }
      let r := fill rest
        { faults := batch.faults ++ [f.toCompactFault], mask := batch.mask ||| f.saMask }
      (f :: r.1, r.2.1, r.2.2 + 1)

/-- `next_batch`. -/
def nextBatch : FaultBatch × BatchManager :=
  let r := fill (bm.pending.drop bm.cursor) {}
  (r.2.1, { bm with
    pending := bm.pending.take bm.cursor ++ r.1
    cursor := bm.cursor + r.2.2 })

/-- The test of the inner loops of `mark_detected` and `finish_batch`. -/
def Matches (hit : CompactFault) (f : ScheduledFault) : Prop :=
  f.netIndex = hit.netIndex ∧ f.type = hit.type ∧ f.bit = hit.bit

instance (hit : CompactFault) (f : ScheduledFault) : Decidable (Matches hit f) :=
  inferInstanceAs (Decidable (_ ∧ _ ∧ _))

/-- Those loops: the first fault that matches gets a status. -/
def settle (status : CompactFault.Status) (hit : CompactFault) :
    List ScheduledFault → List ScheduledFault × Option ScheduledFault
  | [] => ([], none)
  | f :: rest =>
    if Matches hit f then ({ f with status := status } :: rest, some { f with status := status })
    else
      let r := settle status hit rest
      (f :: r.1, r.2)

/-- `mark_detected`. -/
def markDetected : BatchManager :=
  batch.faults.foldl (fun bm hit =>
    if detectedMask &&& hit.saMask = 0#64 then bm
    else
      let r := settle .DETECTED hit bm.pending
      { bm with pending := r.1, detected := bm.detected ++ r.2.toList }) bm

/-- The loop of `finish_batch` over the faults whose lane is not set. -/
def markUndetected : BatchManager :=
  batch.faults.foldl (fun bm miss =>
    if detectedMask &&& miss.saMask ≠ 0#64 then bm
    else { bm with pending := (settle .UNDETECTED miss bm.pending).1 }) bm

/-- `drop_detected`, which is also how `finish_batch` ends. -/
def dropDetected : BatchManager :=
  { bm with pending := bm.pending.filter fun f => f.status = .PENDING, cursor := 0 }

/-- `finish_batch`. -/
def finishBatch : BatchManager :=
  ((bm.markDetected batch detectedMask).markUndetected batch detectedMask).dropDetected

/-- The loop of the caller, with the mask of every batch by its number: the batches with their
masks, and what the manager holds in the end. -/
def run (masks : ℕ → Word) : ℕ → ℕ → BatchManager → Option (List (FaultBatch × Word) × BatchManager)
  | 0, _, bm => if bm.hasPending then none else some ([], bm)
  | fuel + 1, k, bm =>
    if bm.hasPending then
      let next := bm.nextBatch
      (run masks fuel (k + 1) (next.2.finishBatch next.1 (masks k))).map fun r =>
        ((next.1, masks k) :: r.1, r.2)
    else some ([], bm)

/-! ## The lanes of a batch -/

/-- How many faults are pending. -/
def pendingCount : ℕ := faults.countP fun f => f.status = .PENDING

/-- The pending faults with the lanes from `n + 1` on. -/
def lanesFrom : ℕ → List ScheduledFault → List ScheduledFault
  | _, [] => []
  | n, f :: rest =>
    if f.status = .PENDING then
      { f with bit := n + 1, saMask := laneMask (n + 1) } :: lanesFrom (n + 1) rest
    else f :: lanesFrom n rest

/-- The copies of the pending faults. -/
def copies : List CompactFault :=
  (faults.filter fun f => f.status = .PENDING).map ScheduledFault.toCompactFault

@[simp]
theorem lanesFrom_nil (n : ℕ) : lanesFrom n [] = [] := rfl

theorem lanesFrom_cons (n : ℕ) (f : ScheduledFault) (rest : List ScheduledFault) :
    lanesFrom n (f :: rest) = if f.status = .PENDING then
      { f with bit := n + 1, saMask := laneMask (n + 1) } :: lanesFrom (n + 1) rest
    else f :: lanesFrom n rest := rfl

theorem pendingCount_cons (f : ScheduledFault) (l : List ScheduledFault) :
    pendingCount (f :: l) = pendingCount l + if f.status = .PENDING then 1 else 0 := by
  simp [pendingCount, List.countP_cons]

theorem pendingCount_append (l l' : List ScheduledFault) :
    pendingCount (l ++ l') = pendingCount l + pendingCount l' :=
  List.countP_append

theorem lanesFrom_append (n : ℕ) (l l' : List ScheduledFault) :
    lanesFrom n (l ++ l') = lanesFrom n l ++ lanesFrom (n + pendingCount l) l' := by
  induction l generalizing n with
  | nil => rfl
  | cons f l ih =>
    rw [List.cons_append, lanesFrom_cons, lanesFrom_cons, pendingCount_cons]
    by_cases hf : f.status = .PENDING
    · rw [if_pos hf, if_pos hf, if_pos hf, ih, List.cons_append, Nat.add_assoc, Nat.add_comm 1]
    · rw [if_neg hf, if_neg hf, if_neg hf, ih, List.cons_append, Nat.add_zero]

/-- A fault without its lane. -/
def site (f : CompactFault) : CompactFault := { f with bit := 0, saMask := 0#64 }

/-- A fault before and after the lanes are given: a skipped one is as it was, a pending one has a
lane of the range. -/
structure Laned (n count : ℕ) (f f' : ScheduledFault) : Prop where
  site : site f'.toCompactFault = site f.toCompactFault
  status : f'.status = f.status
  skipped : f.status ≠ .PENDING → f' = f
  pending : f.status = .PENDING → n < f'.bit ∧ f'.bit ≤ n + count ∧ f'.saMask = laneMask f'.bit

theorem forall₂_lanesFrom (n : ℕ) (l : List ScheduledFault) :
    List.Forall₂ (Laned n (pendingCount l)) l (lanesFrom n l) := by
  induction l generalizing n with
  | nil => exact .nil
  | cons f l ih =>
    rw [lanesFrom_cons, pendingCount_cons]
    by_cases hf : f.status = .PENDING
    · rw [if_pos hf, if_pos hf]
      refine .cons ⟨rfl, rfl, fun h => absurd hf h, fun _ => ⟨?_, ?_, rfl⟩⟩ ((ih (n + 1)).imp ?_)
      · exact Nat.lt_succ_self n
      · show n + 1 ≤ _
        omega
      · intro a b h
        refine ⟨h.site, h.status, h.skipped, fun ha => ?_⟩
        obtain ⟨hlo, hhi, hmask⟩ := h.pending ha
        exact ⟨by omega, by omega, hmask⟩
    · rw [if_neg hf, if_neg hf]
      exact .cons ⟨rfl, rfl, fun _ => rfl, fun h => absurd h hf⟩ (ih n)

theorem copies_cons (f : ScheduledFault) (l : List ScheduledFault) :
    copies (f :: l) = if f.status = .PENDING then f.toCompactFault :: copies l else copies l := by
  unfold copies
  rw [List.filter_cons]
  by_cases hf : f.status = .PENDING <;> simp [hf]

theorem length_copies (l : List ScheduledFault) : (copies l).length = pendingCount l := by
  rw [copies, List.length_map, pendingCount, List.countP_eq_length_filter]

/-- The lanes of a batch, in order. -/
theorem bits_copies_lanesFrom (n : ℕ) (l : List ScheduledFault) :
    (copies (lanesFrom n l)).map CompactFault.bit = List.range' (n + 1) (pendingCount l) := by
  induction l generalizing n with
  | nil => rfl
  | cons f l ih =>
    rw [lanesFrom_cons, pendingCount_cons]
    by_cases hf : f.status = .PENDING
    · rw [if_pos hf, if_pos hf, copies_cons, if_pos hf, List.map_cons, ih, List.range'_succ]
    · rw [if_neg hf, if_neg hf, copies_cons, if_neg hf, ih]
      rfl

/-- Lanes change nothing else. -/
theorem site_copies_lanesFrom (n : ℕ) (l : List ScheduledFault) :
    (copies (lanesFrom n l)).map site = (copies l).map site := by
  have h := forall₂_lanesFrom n l
  generalize lanesFrom n l = l', pendingCount l = count at h ⊢
  induction h with
  | nil => rfl
  | cons hf _ ih =>
    rw [copies_cons, copies_cons, hf.status]
    split
    · rw [List.map_cons, List.map_cons, ih, hf.site]
    · exact ih

/-- The lanes of some faults, in one word. -/
def lanesMask (mask : Word) (faults : List CompactFault) : Word :=
  faults.foldl (fun m f => m ||| f.saMask) mask

/-- **What the loop of `next_batch` does**: it runs over a part of the faults with at most 63
pending ones, and stops there only when it has as many. -/
theorem fill_spec (l : List ScheduledFault) (batch : FaultBatch)
    (hsize : batch.faults.length ≤ batchSize) :
    ∃ taken rest, l = taken ++ rest ∧
      fill l batch = (lanesFrom batch.faults.length taken ++ rest,
        ⟨batch.faults ++ copies (lanesFrom batch.faults.length taken),
          lanesMask batch.mask (copies (lanesFrom batch.faults.length taken))⟩, taken.length) ∧
      batch.faults.length + pendingCount taken ≤ batchSize ∧
      (rest = [] ∨ batch.faults.length + pendingCount taken = batchSize) := by
  induction l generalizing batch with
  | nil => exact ⟨[], [], rfl, by simp [fill, copies, lanesMask], hsize, .inl rfl⟩
  | cons f l ih =>
    unfold fill
    by_cases hfull : batchSize ≤ batch.faults.length
    · rw [if_pos hfull]
      exact ⟨[], f :: l, rfl, by simp [copies, lanesMask], hsize,
        .inr (le_antisymm hsize hfull)⟩
    rw [if_neg hfull]
    by_cases hf : f.status = .PENDING
    · rw [if_neg (not_not.2 hf)]
      obtain ⟨taken, rest, rfl, hfill, hle, hrest⟩ := ih
        { faults := batch.faults ++ [{ f.toCompactFault with
            bit := batch.faults.length + 1, saMask := laneMask (batch.faults.length + 1) }]
          mask := batch.mask ||| laneMask (batch.faults.length + 1) }
        (by rw [List.length_append, List.length_singleton]; omega)
      have hcount : pendingCount (f :: taken) = pendingCount taken + 1 := by
        simp [pendingCount, hf]
      simp only [List.length_append, List.length_singleton] at hfill hle hrest
      refine ⟨f :: taken, rest, rfl, ?_, by omega, hrest.imp_right fun h => by omega⟩
      simp only [hfill, lanesFrom_cons, if_pos hf, copies_cons, List.cons_append, List.append_assoc,
        List.length_cons, List.nil_append, lanesMask, List.foldl_cons]
    · rw [if_pos hf]
      obtain ⟨taken, rest, rfl, hfill, hle, hrest⟩ := ih batch hsize
      have hcount : pendingCount (f :: taken) = pendingCount taken := by
        simp [pendingCount, hf]
      refine ⟨f :: taken, rest, rfl, ?_, by omega, hrest.imp_right fun h => by omega⟩
      simp only [hfill, lanesFrom_cons, if_neg hf, copies_cons, List.cons_append, List.length_cons]

/-! ## Finding the fault of a copy -/

/-- The statuses that a list of copies gives, one after the other. -/
def settleAll (status : CompactFault.Status) (hits : List CompactFault)
    (l : List ScheduledFault) : List ScheduledFault :=
  hits.foldl (fun l hit => (settle status hit l).1) l

/-- The faults found for a list of copies, with the status they get. -/
def found (status : CompactFault.Status) : List CompactFault → List ScheduledFault →
    List ScheduledFault
  | [], _ => []
  | hit :: hits, l => (settle status hit l).2.toList ++ found status hits (settle status hit l).1

variable {status : CompactFault.Status} {f : ScheduledFault} {hit : CompactFault}
  {hits : List CompactFault} {l taken rest : List ScheduledFault} {fuel k : ℕ}

theorem settle_cons_of_not (h : ¬ Matches hit f) (l : List ScheduledFault) :
    settle status hit (f :: l) = (f :: (settle status hit l).1, (settle status hit l).2) := by
  rw [settle, if_neg h]

theorem settle_cons_of_matches (h : Matches hit f) (l : List ScheduledFault) :
    settle status hit (f :: l) =
      ({ f with status := status } :: l, some { f with status := status }) := by
  rw [settle, if_pos h]

/-- A fault that matches no copy is left alone. -/
theorem settleAll_cons (h : ∀ hit ∈ hits, ¬ Matches hit f) (l : List ScheduledFault) :
    settleAll status hits (f :: l) = f :: settleAll status hits l ∧
      found status hits (f :: l) = found status hits l := by
  induction hits generalizing l with
  | nil => exact ⟨rfl, rfl⟩
  | cons hit hits ih =>
    have hnot : settle status hit (f :: l) =
        (f :: (settle status hit l).1, (settle status hit l).2) :=
      settle_cons_of_not (h hit List.mem_cons_self) l
    obtain ⟨ih1, ih2⟩ := ih (fun a ha => h a (List.mem_cons_of_mem _ ha)) (settle status hit l).1
    constructor
    · rw [settleAll, List.foldl_cons, hnot]
      exact ih1
    · rw [found, hnot, ih2]
      rfl

/-- No fault stands in front of one of `sel` that its copy matches too. -/
def Apart (sel : ScheduledFault → Prop) (l : List ScheduledFault) : Prop :=
  l.Pairwise fun x f => sel f → ¬ Matches f.toCompactFault x

/-- **Every copy finds its own fault.** -/
theorem settleAll_eq (status : CompactFault.Status) {sel : ScheduledFault → Prop}
    [DecidablePred sel] (h : Apart sel l) (rest : List ScheduledFault) :
    settleAll status ((l.filter sel).map ScheduledFault.toCompactFault) (l ++ rest) =
        l.map (fun f => if sel f then { f with status := status } else f) ++ rest ∧
      found status ((l.filter sel).map ScheduledFault.toCompactFault) (l ++ rest) =
        (l.filter sel).map fun f => { f with status := status } := by
  induction l with
  | nil => exact ⟨rfl, rfl⟩
  | cons f l ih =>
    obtain ⟨hhead, htail⟩ := List.pairwise_cons.1 h
    have hlater : ∀ hit ∈ (l.filter sel).map ScheduledFault.toCompactFault, ¬ Matches hit f := by
      intro hit hhit
      obtain ⟨x, hx, rfl⟩ := List.mem_map.1 hhit
      obtain ⟨hmem, hsel⟩ := List.mem_filter.1 hx
      exact hhead x hmem (of_decide_eq_true hsel)
    obtain ⟨ih1, ih2⟩ := ih htail
    by_cases hsel : sel f
    · -- the copy of the head finds the head, the others pass it
      rw [List.filter_cons_of_pos (by simpa using hsel), List.map_cons, List.map_cons,
        List.cons_append, if_pos hsel, List.map_cons]
      have hown : settle status f.toCompactFault (f :: (l ++ rest)) =
          ({ f with status := status } :: (l ++ rest), some { f with status := status }) :=
        settle_cons_of_matches ⟨rfl, rfl, rfl⟩ (l ++ rest)
      have hpass : ∀ hit ∈ (l.filter sel).map ScheduledFault.toCompactFault,
          ¬ Matches hit { f with status := status } := hlater
      obtain ⟨hrest, hfound⟩ := settleAll_cons hpass (l ++ rest)
      constructor
      · rw [settleAll, List.foldl_cons, hown]
        exact hrest.trans (congrArg _ ih1)
      · rw [found, hown, hfound, ih2]
        rfl
    · rw [List.filter_cons_of_neg (by simpa using hsel), List.map_cons, List.cons_append,
        if_neg hsel]
      obtain ⟨hrest, hfound⟩ := settleAll_cons hlater (l ++ rest)
      exact ⟨hrest.trans (congrArg _ ih1), hfound.trans ih2⟩

/-- The lane of a fault is set in a mask. -/
def IsHit (mask : Word) (f : CompactFault) : Prop := mask &&& f.saMask ≠ 0#64

instance (mask : Word) (f : CompactFault) : Decidable (IsHit mask f) :=
  inferInstanceAs (Decidable (_ ≠ _))

theorem markDetected_eq (bm : BatchManager) (batch : FaultBatch) (mask : Word) :
    bm.markDetected batch mask = { bm with
      pending := settleAll .DETECTED (batch.faults.filter (IsHit mask)) bm.pending
      detected := bm.detected ++
        found .DETECTED (batch.faults.filter (IsHit mask)) bm.pending } := by
  obtain ⟨faults, _⟩ := batch
  unfold markDetected
  induction faults generalizing bm with
  | nil => simp [settleAll, found]
  | cons f faults ih =>
    rw [List.foldl_cons, ih]
    by_cases hf : IsHit mask f
    · rw [if_neg hf, List.filter_cons_of_pos (by simpa using hf)]
      simp only [settleAll, List.foldl_cons, found, List.append_assoc]
    · rw [if_pos (not_not.1 hf), List.filter_cons_of_neg (by simpa using hf)]

theorem markUndetected_eq (bm : BatchManager) (batch : FaultBatch) (mask : Word) :
    bm.markUndetected batch mask = { bm with
      pending := settleAll .UNDETECTED (batch.faults.filter fun f => ¬ IsHit mask f)
        bm.pending } := by
  obtain ⟨faults, _⟩ := batch
  unfold markUndetected
  induction faults generalizing bm with
  | nil => rfl
  | cons f faults ih =>
    rw [List.foldl_cons, ih]
    by_cases hf : IsHit mask f
    · rw [if_pos (show mask &&& f.saMask ≠ 0#64 from hf),
        List.filter_cons_of_neg (by simpa using hf)]
    · rw [if_neg (show ¬ mask &&& f.saMask ≠ 0#64 from hf),
        List.filter_cons_of_pos (by simpa using hf)]
      rfl

variable {bm}

/-- **The end of a batch** whose copies find their faults: nothing of the part it was taken from
is left. -/
theorem finishBatch_eq {batch : FaultBatch} (hpending : bm.pending = taken ++ rest)
    (hbatch : batch.faults = copies taken) (h : Apart (fun f => f.status = .PENDING) taken)
    (mask : Word) : bm.finishBatch batch mask =
      { pending := rest.filter fun f => f.status = .PENDING
        detected := bm.detected ++
          ((copies taken).filter (IsHit mask)).map fun f => { f with status := .DETECTED }
        cursor := 0 } := by
  -- first the faults whose lane is set
  have hhits : (copies taken).filter (IsHit mask) = (taken.filter fun f =>
      f.status = .PENDING ∧ IsHit mask f.toCompactFault).map ScheduledFault.toCompactFault := by
    rw [copies, List.filter_map, List.filter_filter]
    congr 1
    refine List.filter_congr fun f _ => ?_
    simp [Bool.and_comm]
  have hapart : Apart (fun f => f.status = .PENDING ∧ IsHit mask f.toCompactFault) taken :=
    h.imp fun hx hf => hx hf.1
  obtain ⟨hdet, hfound⟩ := settleAll_eq .DETECTED hapart rest
  -- then the others, which are still pending
  generalize hmarked : taken.map (fun f => if f.status = .PENDING ∧ IsHit mask f.toCompactFault then
    { f with status := .DETECTED } else f) = marked at hdet
  have hmisses : (copies taken).filter (fun f => ¬ IsHit mask f) =
      (marked.filter fun f => f.status = .PENDING).map ScheduledFault.toCompactFault := by
    rw [← hmarked, copies, List.filter_map, List.filter_filter, List.filter_map, List.map_map]
    have hsame : ∀ f : ScheduledFault, ((if f.status = .PENDING ∧ IsHit mask f.toCompactFault then
        { f with status := .DETECTED } else f) : ScheduledFault).toCompactFault =
        f.toCompactFault := by
      intro f
      split <;> rfl
    rw [show (ScheduledFault.toCompactFault ∘ fun f : ScheduledFault =>
      if f.status = .PENDING ∧ IsHit mask f.toCompactFault then { f with status := .DETECTED }
      else f) = ScheduledFault.toCompactFault from funext hsame]
    congr 1
    refine List.filter_congr fun f _ => ?_
    by_cases hp : f.status = .PENDING <;> by_cases hm : IsHit mask f.toCompactFault <;>
      simp [hp, hm]
  have hapart' : Apart (fun f => f.status = .PENDING) marked := by
    rw [← hmarked]
    refine List.pairwise_map.2 (h.imp fun {x f} hx hf => ?_)
    have hpend : f.status = .PENDING := by
      by_contra hne
      rw [if_neg fun h => hne h.1] at hf
      exact hne hf
    have hkey := hx hpend
    unfold Matches at hkey ⊢
    split <;> split <;> exact hkey
  obtain ⟨hundet, -⟩ := settleAll_eq .UNDETECTED hapart' rest
  have hdone : (marked.map fun f => if f.status = .PENDING then
      { f with status := .UNDETECTED } else f).filter (fun f => f.status = .PENDING) = [] := by
    rw [List.filter_eq_nil_iff]
    intro f hf
    obtain ⟨x, -, rfl⟩ := List.mem_map.1 hf
    split <;> simp_all
  rw [finishBatch, markUndetected_eq, markDetected_eq, dropDetected, hbatch, hhits, hpending, hdet,
    hmisses, hundet, List.filter_append, hdone, hfound, List.nil_append, List.map_map]
  rfl

/-! ## Stale lanes -/

/-- In front of a pending fault of the first batch stands a fault that is not pending, of the same
net and type and with the number of the lane that the pending one gets. -/
def StaleIn (l : List ScheduledFault) : Prop :=
  ∃ pre f post, l = pre ++ f :: post ∧ f.status = .PENDING ∧ pendingCount pre < batchSize ∧
    ∃ s ∈ pre, s.status ≠ .PENDING ∧ s.netIndex = f.netIndex ∧ s.type = f.type ∧
      s.bit = pendingCount pre + 1

theorem not_staleIn_of_pending (h : ∀ f ∈ l, f.status = .PENDING) : ¬ StaleIn l := by
  rintro ⟨pre, f, post, rfl, -, -, s, hs, hstatus, -⟩
  exact hstatus (h s (List.mem_append_left _ hs))

/-- Without stale lanes the copies of the first batch find their faults. -/
theorem apart_lanesFrom (hsize : pendingCount l ≤ batchSize) (h : ¬ StaleIn (l ++ rest)) :
    Apart (fun f => f.status = .PENDING) (lanesFrom 0 l) := by
  induction l using List.reverseRecOn generalizing rest with
  | nil => exact List.Pairwise.nil
  | append_singleton l f ih =>
    have hcount := pendingCount_append l [f]
    rw [List.append_assoc] at h
    rw [lanesFrom_append]
    refine List.pairwise_append.2 ⟨ih (by omega) h, ?_, fun x hx g hg hpend hmatch => ?_⟩
    · rw [lanesFrom_cons]
      split <;> exact List.pairwise_singleton _ _
    rw [lanesFrom_cons] at hg
    by_cases hf : f.status = .PENDING
    · rw [if_pos hf, lanesFrom_nil, List.mem_singleton] at hg
      subst hg
      have hone : pendingCount [f] = 1 := by simp [pendingCount, hf]
      have hbit : x.bit = pendingCount l + 1 := by
        rw [← Nat.zero_add (pendingCount l)]
        exact hmatch.2.2
      obtain ⟨y, hy, hlaned⟩ := exists_of_mem_right (forall₂_lanesFrom 0 l) hx
      by_cases hstatus : y.status = .PENDING
      · have hle := (hlaned.pending hstatus).2.1
        omega
      · -- a skipped fault in front of it would be stale
        obtain rfl := hlaned.skipped hstatus
        exact h ⟨l, f, rest, rfl, hf, by omega, x, hy, hstatus, hmatch.1, hmatch.2.1, hbit⟩
    · rw [if_neg hf, lanesFrom_nil, List.mem_singleton] at hg
      subst hg
      exact hf hpend

/-- The fault that a search finds. -/
theorem settle_fst (status : CompactFault.Status) (hit : CompactFault) (l : List ScheduledFault) :
    (settle status hit l).1 =
      l.modify (l.findIdx (Matches hit)) fun f => { f with status := status } := by
  induction l with
  | nil => rfl
  | cons f l ih =>
    by_cases hf : Matches hit f
    · rw [settle_cons_of_matches hf, List.findIdx_cons, decide_eq_true hf]
      rfl
    · rw [settle_cons_of_not hf, ih, List.findIdx_cons, decide_eq_false hf]
      rfl

/-- Only a status changes. -/
theorem map_settle (status : CompactFault.Status) (hit : CompactFault) (l : List ScheduledFault) :
    (settle status hit l).1.map ScheduledFault.toCompactFault =
      l.map ScheduledFault.toCompactFault := by
  induction l with
  | nil => rfl
  | cons f l ih =>
    by_cases hf : Matches hit f
    · rw [settle_cons_of_matches hf, List.map_cons, List.map_cons]
    · rw [settle_cons_of_not hf, List.map_cons, List.map_cons, ih]

/-- What searches leave alone: the faults but for their status, the one at `p`, and those from `m`
on. -/
structure Spared (p m : ℕ) (l l' : List ScheduledFault) : Prop where
  faults : l'.map ScheduledFault.toCompactFault = l.map ScheduledFault.toCompactFault
  fault : l'[p]? = l[p]?
  behind : l'.drop m = l.drop m

/-- **No search finds a fault behind one that its copy matches too**, and none goes on behind a
part that has its match. -/
theorem Spared.settleAll (status : CompactFault.Status) {p m q : ℕ} {l' : List ScheduledFault}
    {f s : ScheduledFault} (h : Spared p m l l') (hq : q < p) (hs : l[q]? = some s)
    (hf : l[p]? = some f) (hm : Matches f.toCompactFault s)
    (hhits : ∀ hit ∈ hits, ∃ x ∈ l.take m, Matches hit x) :
    Spared p m l (BatchManager.settleAll status hits l') := by
  refine foldl_invariant (Spared p m l) h fun hit hhit l' h => ?_
  have hidx : l'.findIdx (Matches hit) = l.findIdx (Matches hit) := by
    have hmap : ∀ l : List ScheduledFault, l.findIdx (Matches hit) =
        (l.map ScheduledFault.toCompactFault).findIdx fun c =>
          c.netIndex = hit.netIndex ∧ c.type = hit.type ∧ c.bit = hit.bit := by
      intro l
      rw [List.findIdx_map]
      rfl
    rw [hmap, hmap, h.faults]
  have hlt : l.findIdx (Matches hit) < m := by
    obtain ⟨x, hx, hmx⟩ := hhits hit hhit
    have hfirst : (l.take m).findIdx (Matches hit) < (l.take m).length :=
      List.findIdx_lt_length_of_exists ⟨x, hx, decide_eq_true hmx⟩
    rw [(List.take_prefix m l).findIdx_eq_of_findIdx_lt_length hfirst]
    exact hfirst.trans_le (List.length_take_le ..)
  have hne : l.findIdx (Matches hit) ≠ p := by
    -- the copy would match the fault in front before this one
    rintro rfl
    obtain ⟨hlen, rfl⟩ := List.getElem?_eq_some_iff.1 hf
    obtain ⟨hlen', rfl⟩ := List.getElem?_eq_some_iff.1 hs
    have hown : Matches hit l[l.findIdx (Matches hit)] :=
      of_decide_eq_true (List.findIdx_getElem (w := hlen))
    exact of_decide_eq_false (List.not_of_lt_findIdx hq)
      ⟨hm.1.trans hown.1, hm.2.1.trans hown.2.1, hm.2.2.trans hown.2.2⟩
  refine ⟨(map_settle status hit l').trans h.faults, ?_, ?_⟩
  · rw [settle_fst, hidx, List.getElem?_modify_ne _ _ hne, h.fault]
  · rw [settle_fst, hidx, List.drop_modify_of_lt _ _ _ _ hlt, h.behind]

/-! ## One turn of the loop -/

/-- What `next_batch` takes from a manager whose cursor is at the start. -/
theorem nextBatch_spec (hcur : bm.cursor = 0) :
    ∃ taken rest, bm.pending = taken ++ rest ∧ pendingCount taken ≤ batchSize ∧
      (rest = [] ∨ pendingCount taken = batchSize) ∧
      bm.nextBatch.1 =
        ⟨copies (lanesFrom 0 taken), lanesMask 0#64 (copies (lanesFrom 0 taken))⟩ ∧
      bm.nextBatch.2.pending = lanesFrom 0 taken ++ rest ∧
      bm.nextBatch.2.detected = bm.detected := by
  obtain ⟨taken, rest, hl, hfill, hle, hrest⟩ := fill_spec bm.pending {} (Nat.zero_le _)
  simp only [List.length_nil, List.nil_append, Nat.zero_add] at hfill hle hrest
  refine ⟨taken, rest, hl, hle, hrest, ?_, ?_, rfl⟩
  · rw [nextBatch, hcur, List.drop_zero, hfill]
  · rw [nextBatch, hcur, List.drop_zero, hfill]
    rfl

/-- The batch is one that the simulators take. -/
theorem wellFormed_lanes (hsize : pendingCount taken ≤ batchSize)
    (hopen : ∀ f ∈ taken, f.exclusion = .NONE) :
    (⟨copies (lanesFrom 0 taken), lanesMask 0#64 (copies (lanesFrom 0 taken))⟩ :
      FaultBatch).WellFormed ∧
    ∀ f ∈ copies (lanesFrom 0 taken), f.bit < 64 ∧ f.saMask = laneMask f.bit := by
  have hbits := bits_copies_lanesFrom 0 taken
  have hlane : ∀ f ∈ copies (lanesFrom 0 taken),
      1 ≤ f.bit ∧ f.bit < 64 ∧ f.saMask = laneMask f.bit := by
    intro f hf
    obtain ⟨g, hg, rfl⟩ := List.mem_map.1 hf
    obtain ⟨hmem, hpend⟩ := List.mem_filter.1 hg
    obtain ⟨f, -, hlaned⟩ := exists_of_mem_right (forall₂_lanesFrom 0 taken) hmem
    obtain ⟨hlo, hhi, hmask⟩ := hlaned.pending (hlaned.status ▸ of_decide_eq_true hpend)
    unfold batchSize at hsize
    exact ⟨by omega, by omega, hmask⟩
  refine ⟨⟨?_, ?_, ?_, ?_, rfl⟩, fun f hf => (hlane f hf).2⟩
  · have hlen : (copies (lanesFrom 0 taken)).length = pendingCount taken := by
      rw [← List.length_map (f := CompactFault.bit), hbits, List.length_range']
    show (copies (lanesFrom 0 taken)).length ≤ 63
    rw [hlen]
    exact hsize
  · intro f hf
    obtain ⟨g, hg, rfl⟩ := List.mem_map.1 hf
    obtain ⟨g', hg', hlaned⟩ :=
      exists_of_mem_right (forall₂_lanesFrom 0 taken) (List.mem_filter.1 hg).1
    exact (congrArg CompactFault.exclusion hlaned.site).trans (hopen g' hg')
  · intro f hf
    obtain ⟨hlo, hhi, hmask⟩ := hlane f hf
    exact ⟨f.bit, hlo, hhi, hmask⟩
  · have hmasks : (copies (lanesFrom 0 taken)).map CompactFault.saMask =
        ((copies (lanesFrom 0 taken)).map CompactFault.bit).map laneMask := by
      rw [List.map_map]
      exact List.map_congr_left fun f hf => (hlane f hf).2.2
    show ((copies (lanesFrom 0 taken)).map CompactFault.saMask).Nodup
    rw [hmasks, hbits]
    refine List.Nodup.map_on (fun i hi j _ heq => ?_) List.nodup_range'
    have hi' := List.mem_range'_1.1 hi
    unfold batchSize at hsize
    exact FaultBatch.laneMask_injective (by omega) heq

/-! ## The loop -/

/-- **Exactly once.**  The batches present the pending faults, every one once and in order, in
batches whose lanes are `1`, `2`, and so on; the masks are those of the sequence, from the `k`-th
on; and the faults recorded as detected are those whose lane is set in the mask of their batch. -/
structure ExactlyOnce (masks : ℕ → Word) (k : ℕ) (bm : BatchManager)
    (history : List (FaultBatch × Word)) (bm' : BatchManager) : Prop where
  presented : (history.flatMap fun h => h.1.faults).map site = (copies bm.pending).map site
  lanes : ∀ h ∈ history, h.1.WellFormed ∧
    h.1.faults.map CompactFault.bit = List.range' 1 h.1.faults.length
  masks : history.map Prod.snd = (List.range' k history.length).map masks
  detected : bm'.detected = bm.detected ++ history.flatMap fun h =>
    (h.1.faults.filter fun f => lane f.bit h.2).map fun f => { f with status := .DETECTED }
  finished : bm'.pending = []

theorem filter_isHit {faults : List CompactFault} {mask : Word}
    (h : ∀ f ∈ faults, f.bit < 64 ∧ f.saMask = laneMask f.bit) :
    faults.filter (IsHit mask) = faults.filter fun f => lane f.bit mask := by
  refine List.filter_congr fun f hf => ?_
  obtain ⟨hlt, hmask⟩ := h f hf
  rw [Bool.eq_iff_iff, decide_eq_true_iff, ← laneMask_and_ne_zero hlt, IsHit, hmask]

theorem run_succ {masks : ℕ → Word} (h : bm.hasPending = true) : run masks (fuel + 1) k bm =
      (run masks fuel (k + 1) (bm.nextBatch.2.finishBatch bm.nextBatch.1 (masks k))).map fun r =>
        ((bm.nextBatch.1, masks k) :: r.1, r.2) := by
  rw [run, if_pos h]

/-- **The loop over faults without stale lanes.** -/
theorem run_exactlyOnce (masks : ℕ → Word) (hcur : bm.cursor = 0)
    (hopen : ∀ f ∈ bm.pending, f.exclusion = .NONE) (hstale : ¬ StaleIn bm.pending)
    (hfuel : bm.pending.length ≤ fuel) : ∃ history bm', run masks fuel k bm = some (history, bm') ∧
      ExactlyOnce masks k bm history bm' := by
  induction fuel generalizing k bm with
  | zero =>
    have hnil : bm.pending = [] := List.eq_nil_of_length_eq_zero (by omega)
    refine ⟨[], bm, ?_, by simp [hnil, copies], by simp, rfl, by simp, hnil⟩
    simp [run, hasPending, hnil]
  | succ fuel ih =>
    by_cases hpend : bm.hasPending
    · obtain ⟨taken, rest, hl, hle, hrest, hbatch, hnext, hdet⟩ := nextBatch_spec hcur
      have hopen' : ∀ f ∈ taken, f.exclusion = .NONE := fun f hf =>
        hopen f (hl ▸ List.mem_append_left _ hf)
      obtain ⟨hwf, hlanes⟩ := wellFormed_lanes hle hopen'
      have hfinish := finishBatch_eq hnext (congrArg FaultBatch.faults hbatch)
        (apart_lanesFrom hle (hl ▸ hstale)) (masks k)
      -- a batch takes at least one fault
      have hshort : (rest.filter fun f => f.status = .PENDING).length ≤ fuel := by
        have hfilter : (rest.filter fun f => f.status = .PENDING).length ≤ rest.length :=
          List.length_filter_le _ _
        have hlen : bm.pending.length = taken.length + rest.length := by
          rw [hl, List.length_append]
        rcases hrest with rfl | hfull
        · simp
        · have : pendingCount taken ≤ taken.length := List.countP_le_length
          unfold batchSize at hfull
          omega
      obtain ⟨history, bm', hrun, h⟩ : ∃ history bm',
          run masks fuel (k + 1) (bm.nextBatch.2.finishBatch bm.nextBatch.1 (masks k)) =
            some (history, bm') ∧ ExactlyOnce masks (k + 1)
              (bm.nextBatch.2.finishBatch bm.nextBatch.1 (masks k)) history bm' := by
        rw [hfinish]
        exact ih rfl
          (fun f hf => hopen f (hl ▸ List.mem_append_right _ (List.mem_filter.1 hf).1))
          (not_staleIn_of_pending fun f hf => of_decide_eq_true (List.mem_filter.1 hf).2) hshort
      refine ⟨(bm.nextBatch.1, masks k) :: history, bm', ?_, ?_, ?_, ?_, ?_, h.finished⟩
      · rw [run_succ hpend, hrun]
        rfl
      · have hcopies : copies (rest.filter fun f => f.status = .PENDING) = copies rest := by
          rw [copies, List.filter_filter, copies]
          simp
        have hrest' := h.presented
        rw [hfinish] at hrest'
        rw [List.flatMap_cons, List.map_append, hrest', hcopies, hbatch, site_copies_lanesFrom, hl]
        simp only [copies, List.filter_append, List.map_append]
      · intro p hp
        rcases List.mem_cons.1 hp with rfl | hp
        · rw [hbatch]
          refine ⟨hwf, ?_⟩
          rw [bits_copies_lanesFrom, ← List.length_map (f := CompactFault.bit),
            bits_copies_lanesFrom, List.length_range']
        · exact h.lanes p hp
      · rw [List.map_cons, h.masks, List.length_cons, List.range'_succ, List.map_cons]
      · rw [h.detected, hfinish, hdet, List.flatMap_cons, hbatch, List.append_assoc,
          filter_isHit hlanes]
    · have hnil : bm.pending = [] := by
        refine List.eq_nil_of_length_eq_zero ?_
        simp only [hasPending, hcur, decide_eq_true_eq, Nat.not_lt, Nat.le_zero] at hpend
        exact hpend
      refine ⟨[], bm, ?_, by simp [hnil, copies], by simp, rfl, by simp, hnil⟩
      rw [run, if_neg hpend]

/-- What is left after a turn, whatever the copies have found. -/
theorem pending_finishBatch (bm : BatchManager) (batch : FaultBatch) (mask : Word) :
    (bm.finishBatch batch mask).pending =
      (settleAll .UNDETECTED (batch.faults.filter fun f => ¬ IsHit mask f)
        (settleAll .DETECTED (batch.faults.filter (IsHit mask)) bm.pending)).filter
          fun f => f.status = .PENDING := by
  rw [finishBatch, markUndetected_eq, markDetected_eq, dropDetected]

/-- **Every loop ends**: after one turn only pending faults are left. -/
theorem exists_run_finishBatch (masks : ℕ → Word) (hcur : bm.cursor = 0)
    (hopen : ∀ f ∈ bm.pending, f.exclusion = .NONE) (hfuel : bm.pending.length ≤ fuel) :
    ∃ history bm', run masks fuel (k + 1) (bm.nextBatch.2.finishBatch bm.nextBatch.1 (masks k)) =
        some (history, bm') ∧
      ExactlyOnce masks (k + 1) (bm.nextBatch.2.finishBatch bm.nextBatch.1 (masks k)) history
        bm' := by
  obtain ⟨taken, rest, hl, -, -, -, hnext, -⟩ := nextBatch_spec hcur
  have hmap : ∀ (status : CompactFault.Status) (hits : List CompactFault)
      (l : List ScheduledFault), (settleAll status hits l).map ScheduledFault.toCompactFault =
        l.map ScheduledFault.toCompactFault := by
    intro status hits
    induction hits with
    | nil => exact fun l => rfl
    | cons hit hits ih => exact fun l => (ih _).trans (map_settle status hit l)
  have hpending := pending_finishBatch bm.nextBatch.2 bm.nextBatch.1 (masks k)
  generalize hmarked : settleAll .UNDETECTED (bm.nextBatch.1.faults.filter
    fun f => ¬ IsHit (masks k) f) (settleAll .DETECTED
      (bm.nextBatch.1.faults.filter (IsHit (masks k))) bm.nextBatch.2.pending) = marked at hpending
  have hsame : marked.map ScheduledFault.toCompactFault =
      (lanesFrom 0 taken ++ rest).map ScheduledFault.toCompactFault := by
    rw [← hmarked, hmap, hmap, hnext]
  refine run_exactlyOnce masks rfl (fun f hf => ?_) ?_ ?_
  · rw [hpending] at hf
    have hmem : f.toCompactFault ∈ (lanesFrom 0 taken ++ rest).map ScheduledFault.toCompactFault :=
      hsame ▸ List.mem_map_of_mem (List.mem_filter.1 hf).1
    obtain ⟨g, hg, heq⟩ := List.mem_map.1 hmem
    have hexcl : g.exclusion = f.exclusion := congrArg CompactFault.exclusion heq
    rw [← hexcl]
    rcases List.mem_append.1 hg with hg | hg
    · obtain ⟨g', hg', hlaned⟩ := exists_of_mem_right (forall₂_lanesFrom 0 taken) hg
      exact (congrArg CompactFault.exclusion hlaned.site).trans
        (hopen g' (hl ▸ List.mem_append_left _ hg'))
    · exact hopen g (hl ▸ List.mem_append_right _ hg)
  · rw [hpending]
    exact not_staleIn_of_pending fun f hf => of_decide_eq_true (List.mem_filter.1 hf).2
  · have hlen : marked.length = bm.pending.length := by
      rw [← List.length_map (f := ScheduledFault.toCompactFault), hsame, List.length_map, hl,
        List.length_append, List.length_append, (forall₂_lanesFrom 0 taken).length_eq]
    rw [hpending]
    exact (List.length_filter_le _ _).trans (hlen ▸ hfuel)

/-- **A stale lane makes a fault come twice**: the batches hold more faults than are pending. -/
theorem lt_presented_of_staleIn (masks : ℕ → Word) (hcur : bm.cursor = 0)
    (hopen : ∀ f ∈ bm.pending, f.exclusion = .NONE) (hstale : StaleIn bm.pending)
    (hfuel : bm.pending.length ≤ fuel) :
    ∃ history bm', run masks (fuel + 1) k bm = some (history, bm') ∧
      (copies bm.pending).length < (history.flatMap fun h => h.1.faults).length := by
  obtain ⟨history, bm', hrun, hexact⟩ := exists_run_finishBatch masks (k := k) hcur hopen hfuel
  obtain ⟨taken, rest, hl, hle, hrest, hbatch, hnext, -⟩ := nextBatch_spec hcur
  obtain ⟨pre, f, post, hsplit, hf, hlt, s, hs, hstatus, hnet, htype, hbit⟩ := hstale
  have hpend : bm.hasPending = true := by
    rw [hasPending, hcur, hsplit, decide_eq_true_eq, List.length_append, List.length_cons]
    omega
  -- the fault is in the first batch
  obtain ⟨post', rfl⟩ : ∃ post', taken = pre ++ f :: post' := by
    have heq := hsplit.symm.trans hl
    rcases List.append_eq_append_iff.1 heq with ⟨l, rfl, hl'⟩ | ⟨l, rfl, hl'⟩
    · cases l with
      | nil =>
        -- the batch would end in front of it, and not be full
        rcases hrest with rfl | hfull
        · cases hl'
        · rw [List.append_nil] at hfull
          omega
      | cons a l =>
        rw [List.cons_append, List.cons.injEq] at hl'
        exact ⟨l, by rw [hl'.1]⟩
    · rcases hrest with rfl | hfull
      · cases l <;> cases hl'
      · rw [pendingCount_append] at hlt
        omega
  have hfirst : bm.nextBatch.1.faults.length = pendingCount (pre ++ f :: post') := by
    rw [hbatch, ← List.length_map (f := CompactFault.bit), bits_copies_lanesFrom,
      List.length_range']
  -- no search finds it behind the stale one
  obtain ⟨q, hq, rfl⟩ := List.getElem_of_mem hs
  have hpre := forall₂_lanesFrom 0 pre
  have hq' : q < (lanesFrom 0 pre).length := hpre.length_eq ▸ hq
  generalize hlanes : lanesFrom 0 (pre ++ f :: post') = lanes at hbatch hnext
  rw [lanesFrom_append, lanesFrom_cons, if_pos hf, Nat.zero_add] at hlanes
  have hstale : (lanes ++ rest)[q]? = some pre[q] := by
    rw [← hlanes, List.append_assoc, List.getElem?_append_left hq', List.getElem?_eq_getElem hq']
    exact congrArg some ((hpre.get hq hq').skipped hstatus)
  have hlaned : (lanes ++ rest)[(lanesFrom 0 pre).length]? = some { f with
      bit := pendingCount pre + 1, saMask := laneMask (pendingCount pre + 1) } := by
    simp [← hlanes]
  have hown : ∀ hit ∈ copies lanes, ∃ x ∈ (lanes ++ rest).take lanes.length, Matches hit x := by
    intro hit hhit
    obtain ⟨x, hx, rfl⟩ := List.mem_map.1 hhit
    exact ⟨x, by rw [List.take_left]; exact (List.mem_filter.1 hx).1, rfl, rfl, rfl⟩
  -- so it is still there after the turn, with the faults behind the batch
  have hleft : pendingCount rest + 1 ≤
      (bm.nextBatch.2.finishBatch bm.nextBatch.1 (masks k)).pending.length := by
    rw [pending_finishBatch, hnext, hbatch]
    generalize hmarked : settleAll .UNDETECTED _ (settleAll .DETECTED _ (lanes ++ rest)) = marked
    have hspared : Spared (lanesFrom 0 pre).length lanes.length (lanes ++ rest) marked := by
      rw [← hmarked]
      refine Spared.settleAll _ (Spared.settleAll _ ⟨rfl, rfl, rfl⟩ hq' hstale hlaned
        ⟨hnet, htype, hbit⟩ ?_) hq' hstale hlaned ⟨hnet, htype, hbit⟩ ?_ <;>
        exact fun hit hhit => hown hit (List.mem_filter.1 hhit).1
    have hbehind : marked.drop lanes.length = rest := hspared.behind.trans List.drop_left
    have hone : 0 < pendingCount (marked.take lanes.length) := by
      have hlt : (lanesFrom 0 pre).length < lanes.length := by simp [← hlanes]
      have hget := hspared.fault.trans hlaned
      rw [← List.getElem?_take_of_lt hlt] at hget
      exact List.countP_pos_iff.2 ⟨_, List.mem_of_getElem? hget, decide_eq_true hf⟩
    have hsum := pendingCount_append (marked.take lanes.length) (marked.drop lanes.length)
    rw [List.take_append_drop, hbehind] at hsum
    rw [← List.countP_eq_length_filter]
    show _ ≤ pendingCount marked
    omega
  refine ⟨(bm.nextBatch.1, masks k) :: history, bm', by rw [run_succ hpend, hrun]; rfl, ?_⟩
  have hlater := congrArg List.length hexact.presented
  have hall : (copies (bm.nextBatch.2.finishBatch bm.nextBatch.1 (masks k)).pending).length =
      (bm.nextBatch.2.finishBatch bm.nextBatch.1 (masks k)).pending.length := by
    rw [pending_finishBatch, copies, List.length_map, List.filter_filter]
    simp
  rw [List.length_map, List.length_map, hall] at hlater
  rw [List.flatMap_cons, List.length_append, hlater, hfirst, hl, length_copies,
    pendingCount_append]
  omega

/-- A stale lane of a fault list: one among the faults that the constructor keeps. -/
def StaleLane (faults : List ScheduledFault) : Prop := StaleIn (ofFaults faults).pending

/-- **The loop ends for every fault list and every sequence of masks**, and it presents every
pending fault that is not excluded exactly once, in batches of distinct lanes, and records as
detected those whose lane was set, exactly if the list has no stale lane. -/
theorem batches_exact_iff (faults : List ScheduledFault) :
    (∀ masks, ∃ history bm,
      run masks (faults.length + 1) 0 (ofFaults faults) = some (history, bm)) ∧
    ((∀ masks, ∃ history bm,
      run masks (faults.length + 1) 0 (ofFaults faults) = some (history, bm) ∧
        ExactlyOnce masks 0 (ofFaults faults) history bm) ↔ ¬ StaleLane faults) := by
  have hopen : ∀ f ∈ (ofFaults faults).pending, f.exclusion = .NONE := fun f hf =>
    of_decide_eq_true (List.mem_filter.1 hf).2
  have hlen : (ofFaults faults).pending.length ≤ faults.length := List.length_filter_le _ _
  have hexact : ¬ StaleLane faults → ∀ masks, ∃ history bm,
      run masks (faults.length + 1) 0 (ofFaults faults) = some (history, bm) ∧
        ExactlyOnce masks 0 (ofFaults faults) history bm := fun hstale masks =>
    run_exactlyOnce masks rfl hopen hstale (hlen.trans (Nat.le_succ _))
  refine ⟨fun masks => ?_, fun h hstale => ?_, hexact⟩
  · by_cases hstale : StaleLane faults
    · obtain ⟨history, bm, hrun, -⟩ := lt_presented_of_staleIn masks (k := 0) rfl hopen hstale hlen
      exact ⟨history, bm, hrun⟩
    · obtain ⟨history, bm, hrun, -⟩ := hexact hstale masks
      exact ⟨history, bm, hrun⟩
  · obtain ⟨history, bm, hrun, hone⟩ := h fun _ => 0#64
    obtain ⟨history', bm', hrun', hlt⟩ :=
      lt_presented_of_staleIn (fun _ => 0#64) (k := 0) rfl hopen hstale hlen
    cases hrun.symm.trans hrun'
    have := congrArg List.length hone.presented
    rw [List.length_map, List.length_map] at this
    omega

/-- A fault that is detected already, in the lane that a new fault has, and the same fault once
more, still pending. -/
def staleFaults : List ScheduledFault :=
  [{ netIndex := 0, status := .DETECTED }, { netIndex := 0 }]

/-- The second one is presented twice, though its lane is set in the first mask: it is not found,
and recorded as detected are the one in front of it and, after the second batch, itself. -/
theorem staleFaults_twice : (run (fun _ => laneMask 1) 3 0 (ofFaults staleFaults)).map (fun r =>
      (r.1.map fun h => h.1.faults.map CompactFault.netIndex, r.2.detected.length)) =
      some ([[0], [0]], 2) ∧
    ¬ ∃ history bm, run (fun _ => laneMask 1) 3 0 (ofFaults staleFaults) = some (history, bm) ∧
      ExactlyOnce (fun _ => laneMask 1) 0 (ofFaults staleFaults) history bm := by
  have hrun : (run (fun _ => laneMask 1) 3 0 (ofFaults staleFaults)).map (fun r =>
      (r.1.map fun h => h.1.faults.map CompactFault.netIndex, r.2.detected.length)) =
      some ([[0], [0]], 2) := by decide +kernel
  refine ⟨hrun, ?_⟩
  rintro ⟨history, bm, h, hone⟩
  rw [h, Option.map_some, Option.some.injEq, Prod.mk.injEq] at hrun
  have hlen := congrArg List.length hone.presented
  have hcount : (history.flatMap fun h => h.1.faults).length = 2 := by
    have := congrArg (fun l : List (List ℕ) => l.flatten.length) hrun.1
    simpa [List.length_flatMap, List.length_flatten, Function.comp_def] using this
  rw [List.length_map, List.length_map, hcount] at hlen
  revert hlen
  decide +kernel

end BatchManager

end FaultFlow
