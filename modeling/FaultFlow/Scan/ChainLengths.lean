/-
# How long the scan chains are

`faultflow/scan/stitch.py`: `chain_lengths` splits the flip-flops of the clock
domains into a given number of chains, and `_chain_count_from_options` derives
that number from a limit on the length.  The comparison `size / count` of two
domains is over the rationals.

`chainLengths_spec` says that the split never fails, keeps every chain in one
domain and has the shortest longest chain that the number of chains allows.  The
greedy loop is followed by what it does to a bound `L`: until every chain is
within `L`, it adds no chain that a split within `L` could do without.
-/

import FaultFlow.Lib.Parts
import FaultFlow.Scan.Netlist
import Mathlib.Algebra.Order.Field.Rat
import Mathlib.Data.List.MinMax
import Mathlib.Tactic.Positivity

namespace FaultFlow

namespace Scan

/-- The `ScanError` of the scan tools, by what was wrong, and the `ValueError`
of `max` on nothing. -/
inductive ScanError where
  | chainsBelowOne
  | noEligible (reasons : List String)
  | chainsAboveFfs
  | lengthBelowOne
  | chainsBelowDomains (chains domains : Nat)
  | chainTooLong (length limit : Nat)
  | nameTaken (name : String)
  | namesNotUnique
  | spansDomains (chain : Nat) (clockNets : List YosysNetID)
  | notOneBit (pin : String)
  | unmapped (pin cellType : String)
  | notWbrScan (pin cellType : String)
  | missingWrapperPort (port : String)
  | maxOfNothing
  | scanCellMissing (inst : String)
  | notScanCell (inst : String)
deriving DecidableEq, Repr

/-- `balanced_chain_lengths`. -/
def balancedChainLengths (ffCount chainCount : Nat) : Except ScanError (List Nat) :=
  if chainCount < 1 then .error .chainsBelowOne
  else if ffCount < 1 then .error (.noEligible [])
  else if ffCount < chainCount then .error .chainsAboveFfs
  else .ok (Lib.evenParts ffCount chainCount)

variable (sizes : List Nat) (counts : List Nat)

/-- The domains that have fewer chains than flip-flops: `open_domains`. -/
def openDomains : List Nat :=
  (List.range sizes.length).filter fun d => counts.getD d 0 < sizes.getD d 0

/-- The length of a domain's chains if it could be split evenly. -/
def width (d : Nat) : ℚ := (sizes.getD d 0 : ℚ) / counts.getD d 0

/-- One more chain, for the domain whose chains are longest. -/
def addChain : Except ScanError (List Nat) :=
  match (openDomains sizes counts).argmax (width sizes counts) with
  | some widest => .ok (counts.modify widest (· + 1))
  | none => .error .maxOfNothing

/-- `_chains_per_domain`. -/
def chainsPerDomain (chainCount : Nat) : Except ScanError (List Nat) :=
  (List.range (chainCount - sizes.length)).foldlM (fun counts _ => addChain sizes counts)
    (List.replicate sizes.length 1)

/-- `chain_lengths`. -/
def chainLengths (chainCount : Nat) : Except ScanError (List Nat) := do
  let lengths ← balancedChainLengths sizes.sum chainCount
  if ∀ y ∈ Lib.accumulate 0 sizes, y ∈ Lib.accumulate 0 lengths then return lengths
  let counts ← chainsPerDomain sizes chainCount
  let parts ← (sizes.zip counts).mapM fun p => balancedChainLengths p.1 p.2
  return parts.flatten

/-- `_chain_count_from_options`. -/
def chainCountFromOptions (scanChains : Nat) (maxChainLength : Option Nat) : Except ScanError Nat :=
  if scanChains < 1 then .error .chainsBelowOne
  else match maxChainLength with
    | none => .ok scanChains
    | some limit =>
      if limit < 1 then .error .lengthBelowOne
      else if scanChains = 1 then .ok (max 1 (sizes.map fun n => (n + limit - 1) / limit).sum)
      else .ok scanChains

/-! ## Splits that respect the domains -/

/-- A split of every domain into chains, by the lengths of the chains. -/
structure DomainSplit (sizes : List Nat) where
  parts : List (List Nat)
  fills : parts.map List.sum = sizes

namespace DomainSplit

variable {sizes}

/-- The lengths of all chains, domain after domain. -/
def chains (s : DomainSplit sizes) : List Nat := s.parts.flatten

/-- The length of the longest chain. -/
def longest (s : DomainSplit sizes) : Nat := s.chains.foldr max 0

/-- The longest chain bounds all of them. -/
theorem longest_le_iff {s : DomainSplit sizes} {L : ℕ} :
    s.longest ≤ L ↔ ∀ l ∈ s.chains, l ≤ L := by
  rw [longest]
  induction s.chains with
  | nil => simp
  | cons l ls ih => simp [ih]

/-- The chains have all flip-flops. -/
theorem sum_chains (s : DomainSplit sizes) : s.chains.sum = sizes.sum := by
  rw [chains, List.sum_flatten, s.fills]

/-- A split within `L` has chains enough for each domain. -/
theorem exists_counts (s : DomainSplit sizes) {L : ℕ} (h : s.longest ≤ L) :
    ∃ need : List ℕ, need.length = sizes.length ∧ need.sum = s.chains.length ∧
      ∀ d, sizes.getD d 0 ≤ need.getD d 0 * L := by
  refine ⟨s.parts.map List.length, by simp [← s.fills], by simp [chains], fun d => ?_⟩
  rw [longest_le_iff] at h
  have hd : sizes.getD d 0 = ((s.parts[d]?).map List.sum).getD 0 := by
    simp [← s.fills, List.getD_eq_getElem?_getD]
  rw [hd, List.getD_eq_getElem?_getD, List.getElem?_map]
  cases hp : s.parts[d]? with
  | none => simp
  | some p =>
    exact Lib.sum_le_length_mul fun m hm =>
      h m (List.mem_flatten.2 ⟨p, List.mem_of_getElem? hp, hm⟩)

end DomainSplit

/-! ## The greedy loop -/

/-- Chains for every domain, and no more than it has flip-flops. -/
structure Allocated (sizes counts : List Nat) : Prop where
  length : counts.length = sizes.length
  pos : ∀ d < sizes.length, 0 < counts.getD d 0
  le : ∀ d, counts.getD d 0 ≤ sizes.getD d 0

/-- The domains fit into chains of at most `L`. -/
def Within (sizes counts : List Nat) (L : Nat) : Prop := ∀ d, sizes.getD d 0 ≤ counts.getD d 0 * L

/-- What the loop has to say about a bound `L` that `need` meets: it has met it
as well, or has not spent a chain too many. -/
def Thrifty (sizes counts : List Nat) : Prop :=
  ∀ L need, Within sizes need L → Within sizes counts L ∨ ∀ d, counts.getD d 0 ≤ need.getD d 0

/-- One more chain for a domain. -/
theorem getD_modify_succ (counts : List ℕ) (w d : ℕ) (hw : w < counts.length) :
    (counts.modify w (· + 1)).getD d 0 = counts.getD d 0 + if d = w then 1 else 0 := by
  rw [List.getD_eq_getElem?_getD, List.getD_eq_getElem?_getD, List.getElem?_modify]
  by_cases hd : d = w
  · subst hd
    simp [List.getElem?_eq_getElem hw]
  · simp [hd, Ne.symm hd]

theorem lt_length_of_getD_pos {xs : List ℕ} {d : ℕ} (h : 0 < xs.getD d 0) : d < xs.length := by
  by_contra hge
  simp [List.getD_eq_getElem?_getD, List.getElem?_eq_none (Nat.le_of_not_lt hge)] at h

variable {sizes counts}

/-- The comparison of widths, without a quotient. -/
theorem lt_width_iff {d L : ℕ} (hpos : 0 < counts.getD d 0) :
    (L : ℚ) < width sizes counts d ↔ counts.getD d 0 * L < sizes.getD d 0 := by
  have hq : (0 : ℚ) < counts.getD d 0 := by exact_mod_cast hpos
  rw [width, lt_div_iff₀ hq, Nat.mul_comm]
  exact_mod_cast Iff.rfl

/-- A domain is open while it has more flip-flops than chains. -/
theorem mem_openDomains {d : ℕ} :
    d ∈ openDomains sizes counts ↔ d < sizes.length ∧ counts.getD d 0 < sizes.getD d 0 := by
  simp [openDomains]

/-- **One turn of the loop.**  The domain whose chains are longest is beyond
every bound that some domain is beyond, so another split needs that chain too. -/
theorem addChain_spec (h : Allocated sizes counts) (hthrifty : Thrifty sizes counts)
    (hroom : counts.sum < sizes.sum) :
    ∃ next, addChain sizes counts = .ok next ∧ Allocated sizes next ∧ Thrifty sizes next ∧
      next.sum = counts.sum + 1 := by
  cases hw : (openDomains sizes counts).argmax (width sizes counts) with
  | none =>
    rw [List.argmax_eq_none] at hw
    refine absurd (Lib.sum_le_sum_of_getD fun d => ?_) (Nat.not_le.2 hroom)
    by_contra hd
    have hlt : d < sizes.length := lt_length_of_getD_pos (by omega)
    have : d ∈ openDomains sizes counts := mem_openDomains.2 ⟨hlt, Nat.lt_of_not_le hd⟩
    simp [hw] at this
  | some w =>
    have hopen := mem_openDomains.1 (List.argmax_mem hw)
    have hwlt : w < counts.length := h.length ▸ hopen.1
    refine ⟨_, by rw [addChain, hw], ⟨by simp [h.length], fun d hd => ?_, fun d => ?_⟩, ?_,
      Lib.sum_modify_succ hwlt⟩
    · rw [getD_modify_succ counts w d hwlt]
      have := h.pos d hd
      omega
    · rw [getD_modify_succ counts w d hwlt]
      have := h.le d
      split_ifs with hd
      · subst hd
        omega
      · omega
    · intro L need hneed
      simp only [Within, getD_modify_succ counts w _ hwlt]
      rcases hthrifty L need hneed with hwithin | hle
      · refine .inl fun d => (hwithin d).trans (Nat.mul_le_mul_right L (by omega))
      by_cases hwithin : Within sizes counts L
      · exact .inl fun d => (hwithin d).trans (Nat.mul_le_mul_right L (by omega))
      -- some domain is beyond the bound, so the widest is
      obtain ⟨d, hd⟩ := not_forall.1 hwithin
      have hlt : d < sizes.length := lt_length_of_getD_pos (by omega)
      have hopend : counts.getD d 0 < sizes.getD d 0 := by
        have hL : 0 < L := by
          rcases Nat.eq_zero_or_pos L with rfl | hL
          · have := hneed d
            omega
          · exact hL
        have := Nat.le_mul_of_pos_right (counts.getD d 0) hL
        omega
      have hwide : counts.getD w 0 * L < sizes.getD w 0 :=
        (lt_width_iff (h.pos w hopen.1)).1 <|
          ((lt_width_iff (h.pos d hlt)).2 (Nat.lt_of_not_le hd)).trans_le <|
            List.le_of_mem_argmax (mem_openDomains.2 ⟨hlt, hopend⟩) hw
      refine .inr fun e => ?_
      have := hle e
      split_ifs with he
      · subst he
        have hmul : counts.getD e 0 * L < need.getD e 0 * L := hwide.trans_le (hneed e)
        exact Nat.succ_le_of_lt (Nat.lt_of_mul_lt_mul_right hmul)
      · omega

theorem getD_ones (n d : ℕ) : (List.replicate n 1).getD d 0 = if d < n then 1 else 0 := by
  rw [List.getD_eq_getElem?_getD, List.getElem?_replicate]
  split_ifs <;> rfl

theorem getD_pos (hsizes : ∀ n ∈ sizes, 0 < n) {d : ℕ} (hd : d < sizes.length) :
    0 < sizes.getD d 0 := by
  rw [List.getD_eq_getElem?_getD, List.getElem?_eq_getElem hd]
  exact hsizes _ (List.getElem_mem hd)

/-- One chain for each domain. -/
theorem allocated_ones (hsizes : ∀ n ∈ sizes, 0 < n) :
    Allocated sizes (List.replicate sizes.length 1) where
  length := List.length_replicate
  pos d hd := by simp [hd]
  le d := by
    rw [getD_ones]
    split_ifs with hd
    · exact getD_pos hsizes hd
    · exact Nat.zero_le _

/-- The first chain of a domain is never one too many. -/
theorem thrifty_ones (hsizes : ∀ n ∈ sizes, 0 < n) :
    Thrifty sizes (List.replicate sizes.length 1) := by
  refine fun L need hneed => .inr fun d => ?_
  rw [getD_ones]
  split_ifs with hd
  · by_contra h0
    have hfit := hneed d
    rw [show need.getD d 0 = 0 by omega, Nat.zero_mul] at hfit
    have := getD_pos hsizes hd
    omega
  · exact Nat.zero_le _

/-- **The loop** gives out all its chains, and none too many. -/
theorem chainsPerDomain_spec (hsizes : ∀ n ∈ sizes, 0 < n) {k : ℕ} (hlow : sizes.length ≤ k)
    (hhigh : k ≤ sizes.sum) :
    ∃ counts, chainsPerDomain sizes k = .ok counts ∧ Allocated sizes counts ∧
      Thrifty sizes counts ∧ counts.sum = k := by
  have hstep : ∀ pre a post counts, List.range (k - sizes.length) = pre ++ a :: post →
      (Allocated sizes counts ∧ Thrifty sizes counts) ∧ counts.sum = sizes.length + pre.length →
      ∃ next, addChain sizes counts = .ok next ∧ (Allocated sizes next ∧ Thrifty sizes next) ∧
        next.sum = sizes.length + (pre ++ [a]).length := by
    rintro pre a post counts hrange ⟨⟨halloc, hthrifty⟩, hsum⟩
    have hlen := congrArg List.length hrange
    simp only [List.length_range, List.length_append, List.length_cons] at hlen
    obtain ⟨next, hnext, halloc', hthrifty', hsum'⟩ := addChain_spec halloc hthrifty (by omega)
    refine ⟨next, hnext, ⟨halloc', hthrifty'⟩, ?_⟩
    simp only [List.length_append, List.length_singleton]
    omega
  obtain ⟨counts, hcounts, ⟨halloc, hthrifty⟩, hsum⟩ := Lib.exists_foldlM _
    ⟨⟨allocated_ones hsizes, thrifty_ones hsizes⟩, by simp⟩ hstep
  refine ⟨counts, hcounts, halloc, hthrifty, ?_⟩
  rw [hsum, List.length_range]
  omega

/-! ## The split -/

/-- A domain and its number of chains. -/
theorem exists_index_of_mem_zip {xs ys : List ℕ} {p : ℕ × ℕ} (h : p ∈ xs.zip ys) :
    ∃ d < xs.length, xs.getD d 0 = p.1 ∧ ys.getD d 0 = p.2 := by
  obtain ⟨d, hd⟩ := List.mem_iff_getElem?.1 h
  obtain ⟨hx, hy⟩ := List.getElem?_zip_eq_some.1 hd
  obtain ⟨hlt, -⟩ := List.getElem?_eq_some_iff.1 hx
  exact ⟨d, hlt, by simp [List.getD_eq_getElem?_getD, hx], by simp [List.getD_eq_getElem?_getD, hy]⟩

/-- Each domain has a chain, and at most one for each flip-flop. -/
theorem Allocated.bounds (h : Allocated sizes counts) {p : ℕ × ℕ} (hp : p ∈ sizes.zip counts) :
    0 < p.2 ∧ p.2 ≤ p.1 := by
  obtain ⟨d, hd, hx, hy⟩ := exists_index_of_mem_zip hp
  exact ⟨hy ▸ h.pos d hd, hx ▸ hy ▸ h.le d⟩

/-- The even splits of the domains. -/
def Allocated.split (h : Allocated sizes counts) : DomainSplit sizes where
  parts := (sizes.zip counts).map fun p => Lib.evenParts p.1 p.2
  fills := by
    have hsum : ∀ p ∈ sizes.zip counts, (List.sum ∘ fun p => Lib.evenParts p.1 p.2) p = p.1 :=
      fun p hp => Lib.sum_evenParts p.1 (h.bounds hp).1
    rw [List.map_map, List.map_congr_left hsum, List.map_fst_zip h.length.ge]

/-- The split has the chains that were allocated. -/
theorem Allocated.length_chains (h : Allocated sizes counts) :
    h.split.chains.length = counts.sum := by
  have hlen : ∀ p ∈ sizes.zip counts, (List.length ∘ fun p => Lib.evenParts p.1 p.2) p = p.2 :=
    fun p _ => by simp
  rw [DomainSplit.chains, List.length_flatten, Allocated.split, List.map_map,
    List.map_congr_left hlen, List.map_snd_zip h.length.le]

/-- None of them is empty. -/
theorem Allocated.chains_pos (h : Allocated sizes counts) : ∀ l ∈ h.split.chains, 0 < l := by
  intro l hl
  obtain ⟨part, hpart, hl⟩ := List.mem_flatten.1 hl
  obtain ⟨p, hp, rfl⟩ := List.mem_map.1 hpart
  exact Lib.evenParts_pos (h.bounds hp).2 l hl

/-- Domains that fit into chains of length `L` give such a split. -/
theorem Allocated.longest_le (h : Allocated sizes counts) {L : ℕ} (hL : Within sizes counts L) :
    h.split.longest ≤ L := by
  refine DomainSplit.longest_le_iff.2 fun l hl => ?_
  obtain ⟨part, hpart, hl⟩ := List.mem_flatten.1 hl
  obtain ⟨p, hp, rfl⟩ := List.mem_map.1 hpart
  obtain ⟨d, -, hx, hy⟩ := exists_index_of_mem_zip hp
  exact Lib.evenParts_le (hx ▸ hy ▸ hL d) l hl

/-- `balanced_chain_lengths` divides evenly. -/
theorem balancedChainLengths_eq {n k : ℕ} (hk : 0 < k) (hkn : k ≤ n) :
    balancedChainLengths n k = .ok (Lib.evenParts n k) := by
  rw [balancedChainLengths, if_neg (by omega), if_neg (by omega), if_neg (by omega)]

/-- What `chain_lengths` promises of a split into `k` chains. -/
structure Balanced (k : ℕ) (s : DomainSplit sizes) : Prop where
  count : s.chains.length = k
  pos : ∀ l ∈ s.chains, 0 < l
  shortest : ∀ t : DomainSplit sizes, t.chains.length = k → s.longest ≤ t.longest

/-- A bound that leaves room for every domain is met. -/
theorem Balanced.longest_le {k : ℕ} {s : DomainSplit sizes} (h : Balanced k s) {L : ℕ}
    (t : DomainSplit sizes) (ht : t.chains.length = k) (hL : t.longest ≤ L) : s.longest ≤ L :=
  (h.shortest t ht).trans hL

/-- **The split** does not fail, and no other split into as many chains that
respects the domains has a shorter longest chain. -/
theorem chainLengths_spec (hsizes : ∀ n ∈ sizes, 0 < n) {k : ℕ} (hk : 0 < k)
    (hlow : sizes.length ≤ k) (hhigh : k ≤ sizes.sum) :
    ∃ s : DomainSplit sizes, chainLengths sizes k = .ok s.chains ∧ Balanced k s := by
  have heven := balancedChainLengths_eq hk hhigh
  by_cases hends : ∀ y ∈ Lib.accumulate 0 sizes, y ∈ Lib.accumulate 0 (Lib.evenParts sizes.sum k)
  · -- the even split of all flip-flops happens to respect the domains
    obtain ⟨parts, hflat, hfills⟩ := Lib.exists_parts_of_accumulate 0 hsizes
      (Lib.evenParts_pos hhigh) (Lib.sum_evenParts _ hk) hends
    refine ⟨⟨parts, hfills⟩, ?_, ?_, ?_, fun t ht => ?_⟩
    · rw [chainLengths, heven]
      simp only [bind, Except.bind, if_pos hends, pure, Except.pure, DomainSplit.chains, hflat]
    · simp [DomainSplit.chains, hflat]
    · rw [DomainSplit.chains, hflat]
      exact Lib.evenParts_pos hhigh
    · refine DomainSplit.longest_le_iff.2 ?_
      rw [DomainSplit.chains, hflat]
      refine Lib.evenParts_le ?_
      rw [← t.sum_chains, ← ht]
      exact Lib.sum_le_length_mul (DomainSplit.longest_le_iff.1 le_rfl)
  · obtain ⟨counts, hcounts, halloc, hthrifty, hsum⟩ := chainsPerDomain_spec hsizes hlow hhigh
    refine ⟨halloc.split, ?_, halloc.length_chains.trans hsum, halloc.chains_pos, fun t ht => ?_⟩
    · have hparts : (sizes.zip counts).mapM (fun p => balancedChainLengths p.1 p.2) =
          .ok halloc.split.parts :=
        Lib.mapM_eq_ok fun p hp => balancedChainLengths_eq (halloc.bounds hp).1 (halloc.bounds hp).2
      rw [chainLengths, heven]
      simp only [bind, Except.bind, if_neg hends, hcounts, hparts, pure, Except.pure,
        DomainSplit.chains]
    · obtain ⟨need, -, hneed, hfit⟩ := t.exists_counts le_rfl
      refine halloc.longest_le ((hthrifty _ need hfit).elim id fun hle => ?_)
      -- no chain to spare on either side, so the two numbers of chains agree
      intro d
      rw [Lib.getD_eq_of_sum_le hle (by omega) d]
      exact hfit d

/-- Chains of at most `limit` for every domain. -/
theorem exists_split_within {limit : ℕ} (hlimit : 0 < limit) (hsizes : ∀ n ∈ sizes, 0 < n) :
    ∃ t : DomainSplit sizes,
      t.chains.length = (sizes.map fun n => (n + limit - 1) / limit).sum ∧ t.longest ≤ limit := by
  have hpos : ∀ n ∈ sizes, 0 < (n + limit - 1) / limit := fun n hn =>
    Nat.div_pos (by have := hsizes n hn; omega) hlimit
  have hfit : ∀ n, n ≤ (n + limit - 1) / limit * limit := by
    intro n
    have h1 := Nat.div_add_mod (n + limit - 1) limit
    have h2 := Nat.mod_lt (n + limit - 1) hlimit
    rw [Nat.mul_comm] at h1
    omega
  refine ⟨⟨sizes.map fun n => Lib.evenParts n ((n + limit - 1) / limit), ?_⟩, ?_, ?_⟩
  · rw [List.map_map]
    exact (List.map_congr_left fun n hn => Lib.sum_evenParts n (hpos n hn)).trans (List.map_id _)
  · simp [DomainSplit.chains, List.length_flatten, Function.comp_def]
  · refine DomainSplit.longest_le_iff.2 fun l hl => ?_
    obtain ⟨part, hpart, hl⟩ := List.mem_flatten.1 hl
    obtain ⟨n, -, rfl⟩ := List.mem_map.1 hpart
    exact Lib.evenParts_le (hfit n) l hl

/-- **A number of chains derived from a limit** is one `chain_lengths` accepts,
and keeps every chain within the limit. -/
theorem chainCountFromOptions_spec (hsizes : ∀ n ∈ sizes, 0 < n) (hne : sizes ≠ []) {limit : ℕ}
    (hlimit : 0 < limit) :
    ∃ k, chainCountFromOptions sizes 1 (some limit) = .ok k ∧ sizes.length ≤ k ∧ k ≤ sizes.sum ∧
      ∀ s : DomainSplit sizes, Balanced k s → s.longest ≤ limit := by
  have hpos : ∀ n ∈ sizes, 0 < (n + limit - 1) / limit := fun n hn =>
    Nat.div_pos (by have := hsizes n hn; omega) hlimit
  have hle : ∀ n ∈ sizes, (n + limit - 1) / limit ≤ n := by
    intro n hn
    obtain ⟨n, rfl⟩ := Nat.exists_eq_add_one.2 (hsizes n hn)
    obtain ⟨l, rfl⟩ := Nat.exists_eq_add_one.2 hlimit
    refine Nat.div_le_of_le_mul ?_
    rw [Nat.add_mul, Nat.mul_add]
    omega
  have hlength : sizes.length ≤ (sizes.map fun n => (n + limit - 1) / limit).sum := by
    have := List.length_le_sum_of_one_le (sizes.map fun n => (n + limit - 1) / limit) (by
      intro m hm
      obtain ⟨n, hn, rfl⟩ := List.mem_map.1 hm
      exact hpos n hn)
    simpa using this
  have hsum : (sizes.map fun n => (n + limit - 1) / limit).sum ≤ sizes.sum := by
    simpa using List.sum_le_sum (f := fun n => (n + limit - 1) / limit) (g := id) hle
  have hk : 0 < sizes.length := List.length_pos_iff.2 hne
  refine ⟨_, ?_, hlength, hsum, fun s hs => ?_⟩
  · rw [chainCountFromOptions, if_neg (by omega)]
    simp only [if_neg (Nat.not_lt.2 hlimit), if_true]
    rw [max_eq_right (by omega)]
  · obtain ⟨t, ht, hlongest⟩ := exists_split_within hlimit hsizes
    exact hs.longest_le t ht hlongest

end Scan

end FaultFlow
