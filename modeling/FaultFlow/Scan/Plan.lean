/-
# What a scan plan looks like

The flip-flops are sorted by clock net, so the domains lie one after the other,
and the chains of `chain_lengths` cut them inside the domains: `_build_plan`
never finds a chain that spans two domains, nor, when the number of chains was
derived from a limit, one that is longer than the limit
(`chainLengths_balanced`).
-/

import FaultFlow.Lib.Blocks
import FaultFlow.Scan.Stitch

namespace FaultFlow

open Std (TreeMap)

namespace Scan

/-! ## The domains, one after the other -/

variable {ffs : List EligibleFF}

/-- Sorting loses no flip-flop. -/
theorem sortFfs_perm (ffs : List EligibleFF) : (sortFfs ffs).Perm ffs := List.perm_insertionSort _ _

/-- The flip-flops come by clock. -/
theorem sortFfs_sorted (ffs : List EligibleFF) :
    (sortFfs ffs).Pairwise fun a b => a.clockNet ≤ b.clockNet := by
  let before : EligibleFF → EligibleFF → Prop := fun a b =>
    a.clockNet < b.clockNet ∨ (a.clockNet = b.clockNet ∧ a.instanceName ≤ b.instanceName)
  have htotal : Std.Total before := ⟨fun a b => by
    rcases lt_trichotomy a.clockNet b.clockNet with h | h | h
    · exact .inl (.inl h)
    · exact (String.le_total a.instanceName b.instanceName).imp (fun hi => .inr ⟨h, hi⟩)
        fun hi => .inr ⟨h.symm, hi⟩
    · exact .inr (.inl h)⟩
  have htrans : IsTrans EligibleFF before := ⟨by
    rintro a b c (hab | ⟨hab, hi⟩) (hbc | ⟨hbc, hj⟩)
    · exact .inl (hab.trans hbc)
    · exact .inl (hbc ▸ hab)
    · exact .inl (hab ▸ hbc)
    · exact .inr ⟨hab.trans hbc, String.le_trans hi hj⟩⟩
  have hsorted : (sortFfs ffs).Pairwise before := List.pairwise_insertionSort before ffs
  exact hsorted.imp fun h => h.elim le_of_lt fun h => h.1.le

/-- The clocks are those of the flip-flops. -/
theorem mem_clockNetsOf {net : YosysNetID} : net ∈ clockNetsOf ffs ↔ ∃ ff ∈ ffs, ff.clockNet = net := by
  simp [clockNetsOf]

/-- Each clock is named once, in order. -/
theorem clockNetsOf_sorted (ffs : List EligibleFF) : (clockNetsOf ffs).Pairwise (· < ·) := by
  have hle : (clockNetsOf ffs).Pairwise (· ≤ ·) := List.pairwise_insertionSort _ _
  have hne : (clockNetsOf ffs).Nodup :=
    (List.perm_insertionSort _ _).nodup_iff.2 (List.nodup_dedup _)
  exact hle.imp₂ (fun _ _ => lt_of_le_of_ne) hne

/-- The order of the flip-flops does not matter for them. -/
theorem clockNetsOf_perm {ffs' : List EligibleFF} (h : ffs.Perm ffs') :
    clockNetsOf ffs = clockNetsOf ffs' := by
  refine List.Perm.eq_of_pairwise (fun a b _ _ hab hba => absurd hab hba.asymm)
    (clockNetsOf_sorted ffs) (clockNetsOf_sorted ffs') ?_
  exact (List.perm_insertionSort _ _).trans
    (((h.map _).dedup).trans (List.perm_insertionSort _ _).symm)

/-- The flip-flops of each domain. -/
def domains (ffs : List EligibleFF) : List (List EligibleFF) :=
  (clockNetsOf ffs).map fun net => ffs.filter fun ff => ff.clockNet = net

/-- The domains together are the sorted flip-flops. -/
theorem flatten_domains (ffs : List EligibleFF) : (domains (sortFfs ffs)).flatten = sortFfs ffs :=
  (Lib.eq_flatten_blocks EligibleFF.clockNet (clockNetsOf_sorted _)
    (fun ff hff => mem_clockNetsOf.2 ⟨ff, hff, rfl⟩) (sortFfs_sorted ffs)).symm

/-- `domain_sizes` has the sizes of the domains. -/
theorem map_length_domains (ffs : List EligibleFF) :
    (domains ffs).map List.length = domainSizes ffs := by
  simp [domains, domainSizes, Function.comp_def, List.countP_eq_length_filter]

/-- A domain has one clock. -/
theorem clockNet_of_mem_domains {b : List EligibleFF} (hb : b ∈ domains ffs) :
    ∃ net, ∀ ff ∈ b, ff.clockNet = net := by
  obtain ⟨net, -, rfl⟩ := List.mem_map.1 hb
  exact ⟨net, fun ff hff => by simpa using (List.mem_filter.1 hff).2⟩

/-- No domain is empty. -/
theorem domainSizes_pos (ffs : List EligibleFF) : ∀ n ∈ domainSizes ffs, 0 < n := by
  intro n hn
  obtain ⟨net, hnet, rfl⟩ := List.mem_map.1 hn
  obtain ⟨ff, hff, rfl⟩ := mem_clockNetsOf.1 hnet
  exact List.countP_pos_iff.2 ⟨ff, hff, by simp⟩

/-- There is one domain for each clock. -/
theorem length_domainSizes (ffs : List EligibleFF) :
    (domainSizes (sortFfs ffs)).length = (clockNetsOf ffs).length := by
  rw [domainSizes, List.length_map, clockNetsOf_perm (sortFfs_perm ffs)]

/-- Flip-flops of one clock net have at most one clock net. -/
theorem length_clockNetsOf_le {net : YosysNetID} (h : ∀ ff ∈ ffs, ff.clockNet = net) :
    (clockNetsOf ffs).length ≤ 1 := by
  have hall : ∀ n ∈ clockNetsOf ffs, n = net := by
    intro n hn
    obtain ⟨ff, hff, rfl⟩ := mem_clockNetsOf.1 hn
    exact h ff hff
  have hsorted := clockNetsOf_sorted ffs
  match hnets : clockNetsOf ffs with
  | [] => simp
  | [_] => simp
  | a :: b :: _ =>
    rw [hnets] at hall hsorted
    have hab := (List.pairwise_cons.1 hsorted).1 b (by simp)
    rw [hall a (by simp), hall b (by simp)] at hab
    exact absurd hab (lt_irrefl _)

/-! ## The loop over the chains -/

/-- Chains that each stay on one clock net are built. -/
theorem buildChains_ne_error {ins outs : List String} {bits : List YosysNetID} {se : YosysNetID}
    {lengths : List ℕ} (index : ℕ)
    (h : ∀ c ∈ lengths.splitLengths ffs, (clockNetsOf c).length ≤ 1) :
    ∃ chains, buildChains ins outs bits se index ffs lengths = .ok chains := by
  induction lengths generalizing index ffs with
  | nil => exact ⟨[], rfl⟩
  | cons l ls ih =>
    rw [List.splitLengths_cons, List.forall_mem_cons] at h
    obtain ⟨chains, hchains⟩ := ih (index + 1) h.2
    exact ⟨chainRecord ins outs bits se index (ffs.take l) :: chains, by
      rw [buildChains, hchains]
      simp [Nat.not_lt.2 h.1, bind, Except.bind, pure, Except.pure]⟩

/-- Chains that respect the domains are built. -/
theorem buildChains_of_split {eligible : List EligibleFF} (ins outs : List String)
    (bits : List YosysNetID) (se : YosysNetID)
    (s : DomainSplit (domainSizes (sortFfs eligible))) :
    ∃ chains, buildChains ins outs bits se 0 (sortFfs eligible) s.chains = .ok chains := by
  refine buildChains_ne_error 0 fun c hc => ?_
  obtain ⟨b, hb, hsub⟩ := Lib.exists_block_of_mem_splitLengths
    (s.fills.trans (map_length_domains _).symm) (by rw [flatten_domains]; exact hc)
  obtain ⟨net, hnet⟩ := clockNet_of_mem_domains hb
  exact length_clockNetsOf_le fun ff hff => hnet ff (hsub ff hff)

variable {sizes : List ℕ}

/-- Chains within the limit pass the check. -/
theorem checkLengths_of_longest_le {s : DomainSplit sizes} {limit : ℕ} (h : s.longest ≤ limit) :
    checkLengths (some limit) s.chains = .ok () := by
  have hnone : s.chains.find? (fun length => limit < length) = none :=
    List.find?_eq_none.2 fun l hl => by simpa using DomainSplit.longest_le_iff.1 h l hl
  rw [checkLengths, hnone]

/-! ## The errors after the split -/

/-- The two errors about the chains that the split gave. -/
def ScanError.aboutSplit : ScanError → Bool
  | .chainTooLong _ _ => true
  | .spansDomains _ _ => true
  | _ => false

variable {limit : Option ℕ} {e : ScanError}

/-- An error of the options says nothing of the split. -/
theorem chainCountFromOptions_error {n : ℕ} (h : chainCountFromOptions sizes n limit = .error e) :
    e.aboutSplit = false := by
  unfold chainCountFromOptions at h
  grind [ScanError.aboutSplit]

/-- There is at least one chain. -/
theorem chainCountFromOptions_pos {n k : ℕ} (h : chainCountFromOptions sizes n limit = .ok k) :
    0 < k := by
  unfold chainCountFromOptions at h
  grind

/-- A limit that is accepted is positive. -/
theorem limit_pos_of_chainCount {n k limit : ℕ}
    (h : chainCountFromOptions sizes n (some limit) = .ok k) : 0 < limit := by
  unfold chainCountFromOptions at h
  grind

/-- Where there is a chain there is a domain. -/
theorem DomainSplit.sizes_ne_nil (s : DomainSplit sizes) (h : 0 < s.chains.length) :
    sizes ≠ [] := by
  rintro rfl
  obtain ⟨parts, hfills⟩ := s
  obtain rfl : parts = [] := List.map_eq_nil_iff.1 hfills
  exact absurd h (by simp [DomainSplit.chains])

/-- Nor does an error of the port names say anything of it. -/
theorem scanPortNames_error {k : ℕ} {inBase outBase : String}
    (h : scanPortNames k inBase outBase = .error e) : e.aboutSplit = false := by
  unfold scanPortNames at h
  grind [ScanError.aboutSplit]

/-- Nor does a port name that is taken. -/
theorem checkNamesFree_error {m : Module} {names : List String}
    (h : checkNamesFree m names = .error e) : e.aboutSplit = false := by
  unfold checkNamesFree at h
  grind [ScanError.aboutSplit]

/-- With a chain for each domain, the split fails only when there are more chains
than flip-flops. -/
theorem chainLengths_cases (hsizes : ∀ n ∈ sizes, 0 < n) {k : ℕ} (hk : 0 < k)
    (hlow : sizes.length ≤ k) :
    (∃ e, chainLengths sizes k = .error e ∧ e.aboutSplit = false) ∨
      ∃ s : DomainSplit sizes, chainLengths sizes k = .ok s.chains ∧ Balanced k s := by
  by_cases hhigh : k ≤ sizes.sum
  · exact .inr (chainLengths_spec hsizes hk hlow hhigh)
  · refine .inl ?_
    rw [chainLengths, balancedChainLengths, if_neg (by omega)]
    by_cases hnone : sizes.sum < 1
    · exact ⟨.noEligible [], by rw [if_pos hnone]; rfl, rfl⟩
    · exact ⟨.chainsAboveFfs, by rw [if_neg hnone, if_pos (by omega)]; rfl, rfl⟩

/-- **A plan fails after the split** only when the caller asked for a number of
chains and a limit that do not agree. -/
theorem buildPlan_error {m : Module} {eligible : List EligibleFF} {ineligible : List IneligibleFF}
    {n : ℕ} {inBase outBase se : String} {seBit : YosysNetID} {inBits : List YosysNetID}
    (h : buildPlan m eligible ineligible n limit inBase outBase se seBit inBits = .error e)
    (he : e.aboutSplit = true) :
    ∃ k, chainCountFromOptions (domainSizes (sortFfs eligible)) n limit = .ok k ∧
      ∃ s : DomainSplit (domainSizes (sortFfs eligible)), Balanced k s ∧
        checkLengths limit s.chains = .error e := by
  have hother : ∀ {e' : ScanError}, e' = e → e'.aboutSplit = false → False := by
    rintro _ rfl hfalse
    rw [he] at hfalse
    exact absurd hfalse (by decide)
  simp only [buildPlan] at h
  split at h
  · exact (hother (Except.error.inj h) rfl).elim
  rcases Lib.bind_eq_error.1 h with h | ⟨k, hk, h⟩
  · exact (hother rfl (chainCountFromOptions_error h)).elim
  split at h
  · exact (hother (Except.error.inj h) rfl).elim
  rename_i hdomains
  have hlow : (domainSizes (sortFfs eligible)).length ≤ k := by rw [length_domainSizes]; omega
  refine ⟨k, hk, ?_⟩
  rcases chainLengths_cases (domainSizes_pos _) (chainCountFromOptions_pos hk) hlow with
    ⟨e', hsplit, hsilent⟩ | ⟨s, hsplit, hs⟩
  · rw [hsplit] at h
    exact (hother (Except.error.inj h) hsilent).elim
  refine ⟨s, hs, ?_⟩
  rw [hsplit] at h
  rcases Lib.bind_eq_error.1 h with h | ⟨_, ⟨⟩, h⟩
  · exact absurd h (by simp)
  rcases Lib.bind_eq_error.1 h with h | ⟨_, -, h⟩
  · exact h
  rcases Lib.bind_eq_error.1 h with h | ⟨names, -, h⟩
  · exact (hother rfl (scanPortNames_error h)).elim
  rcases Lib.bind_eq_error.1 h with h | ⟨_, -, h⟩
  · exact (hother rfl (checkNamesFree_error h)).elim
  obtain ⟨chains, hchains⟩ := buildChains_of_split names.1 names.2 inBits seBit s
  rw [hchains] at h
  exact absurd h (by simp [bind, Except.bind, pure, Except.pure])

/-- **Chain splitting**: lengths for `k` chains are found, positive, inside the
domains, and with the shortest possible longest chain; a number of chains that
was derived from a limit keeps the limit, so no plan fails after the split. -/
theorem chainLengths_balanced :
    (∀ (sizes : List ℕ) (k : ℕ), sizes ≠ [] → (∀ n ∈ sizes, 0 < n) → sizes.length ≤ k →
      k ≤ sizes.sum → ∃ s : DomainSplit sizes,
        chainLengths sizes k = .ok s.chains ∧ s.chains.sum = sizes.sum ∧ Balanced k s) ∧
    (∀ (sizes : List ℕ) (limit : ℕ), sizes ≠ [] → (∀ n ∈ sizes, 0 < n) → 0 < limit →
      ∃ (k : ℕ) (lengths : List ℕ), chainCountFromOptions sizes 1 (some limit) = .ok k ∧
        chainLengths sizes k = .ok lengths ∧ ∀ l ∈ lengths, l ≤ limit) ∧
    ∀ (m : Module) (eligible : List EligibleFF) (ineligible : List IneligibleFF) (limit : ℕ)
      (inBase outBase se : String) (seBit : YosysNetID) (inBits : List YosysNetID) (e : ScanError),
      buildPlan m eligible ineligible 1 (some limit) inBase outBase se seBit inBits = .error e →
        e.aboutSplit = false := by
  refine ⟨fun sizes k hne hsizes hlow hhigh => ?_, fun sizes limit hne hsizes hlimit => ?_,
    fun m eligible ineligible limit inBase outBase se seBit inBits e h => ?_⟩
  · have hk : 0 < k := (List.length_pos_iff.2 hne).trans_le hlow
    obtain ⟨s, hs, hbalanced⟩ := chainLengths_spec hsizes hk hlow hhigh
    exact ⟨s, hs, s.sum_chains, hbalanced⟩
  · obtain ⟨k, hk, hlow, hhigh, hwithin⟩ := chainCountFromOptions_spec hsizes hne hlimit
    obtain ⟨s, hs, hbalanced⟩ := chainLengths_spec hsizes (chainCountFromOptions_pos hk) hlow hhigh
    exact ⟨k, s.chains, hk, hs, DomainSplit.longest_le_iff.1 (hwithin s hbalanced)⟩
  · by_contra he
    obtain ⟨k, hk, s, hbalanced, herr⟩ := buildPlan_error h (by simpa using he)
    have hne : domainSizes (sortFfs eligible) ≠ [] := s.sizes_ne_nil
      (hbalanced.count ▸ chainCountFromOptions_pos hk)
    obtain ⟨k', hk', -, -, hwithin⟩ := chainCountFromOptions_spec (domainSizes_pos _) hne
      (limit_pos_of_chainCount hk)
    obtain rfl : k' = k := Except.ok.inj (hk'.symm.trans hk)
    rw [checkLengths_of_longest_le (hwithin s hbalanced)] at herr
    exact absurd herr (by simp)

/-- Two domains of three and two flip-flops in three chains, and in chains of at
most two. -/
theorem threeTwo_balanced :
    (∃ s : DomainSplit [3, 2], chainLengths [3, 2] 3 = .ok s.chains ∧ s.chains.sum = 5 ∧
      Balanced 3 s) ∧
    ∃ (k : ℕ) (lengths : List ℕ), chainCountFromOptions [3, 2] 1 (some 2) = .ok k ∧
      chainLengths [3, 2] k = .ok lengths ∧ ∀ l ∈ lengths, l ≤ 2 :=
  ⟨chainLengths_balanced.1 [3, 2] 3 (by decide) (by decide) (by decide) (by decide),
    chainLengths_balanced.2.1 [3, 2] 2 (by decide) (by decide) (by decide)⟩

/-- No domains take no chains, which the options do not allow. -/
theorem chainLengths_noDomains : (∀ n ∈ ([] : List ℕ), 0 < n) ∧ ([] : List ℕ).length ≤ 0 ∧
    0 ≤ ([] : List ℕ).sum ∧ chainLengths [] 0 = .error .chainsBelowOne :=
  ⟨by decide, by decide, by decide, rfl⟩

end Scan

end FaultFlow
